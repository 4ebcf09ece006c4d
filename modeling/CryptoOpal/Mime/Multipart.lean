import CryptoOpal.Lib.Octets
import CryptoOpal.Lib.Search

/-!
# The Parts of a Multipart Body

A body of several parts is split at its delimiter, two dashes and the boundary, wherever that
occurs. What is delimited goes up to the delimiter, less a line end in front of it, and starts
behind the delimiter before it.

When the delimiter is found, the pointer has been moved past its first octet already, and it is
moved by the length of the delimiter once more. So the octet behind the delimiter is skipped
before a line end is looked for. With CR LF it is the CR, and the LF is looked for and skipped.
With LF it is the LF itself, and a CR or a LF that the part begins with is skipped.
The last delimiter needs two octets more behind the octet that is skipped, which are there when
it has its two dashes and a line end.

## Main definitions

* `findBoundary`: The next delimiter.
* `decode`: The parts of a body.
* `serialise`: A body with given parts.
* `Delimits`: The parts come back.

## Theorems

* `searchBoundary_eq`: The first delimiter is found.
* `decode_isSome`: Nothing outside of the body is read.
* `delimits_iff`: When the parts come back.
-/

namespace CryptoOpal

namespace Mime

open Lib (Octets slice FollowedAt firstFollowed)

/-- `memchr`: where the octet is among the `len` octets from `pos` on. There is no result when
an octet outside of the body is read. -/
def memchr (body : Octets) (c : UInt8) (pos : Nat) : Nat → Option (Option Nat)
  | 0 => some none
  | len + 1 =>
    match body[pos]? with
    | none => none
    | some x => if x = c then some (some pos) else memchr body c (pos + 1) len

/-- `memcmp`: the boundary is at this place. -/
def memcmp (body : Octets) (pos : Nat) (boundary : Octets) : Option Bool :=
  if pos + boundary.length ≤ body.length then
    some (decide (slice body pos boundary.length = boundary))
  else none

/-- What `FindBoundary` returns, and what it sets its arguments to. -/
structure Found where
  len : Option Nat
  bodyPtr : Nat
  bodyLen : Nat
  deriving DecidableEq

/-- Skip one octet, if it is this one. -/
def skipOctet (body : Octets) (c : UInt8) (bodyPtr bodyLen : Nat) : Option (Nat × Nat) :=
  match body[bodyPtr]? with
  | none => none
  | some x => if x = c then some (bodyPtr + 1, bodyLen - 1) else some (bodyPtr, bodyLen)

/-- The length less a line end in front of the delimiter. -/
def lessLineEnd (body : Octets) (found len : Nat) : Option Nat :=
  if len = 0 then some 0
  else
    match body[found - 1]? with
    | none => none
    | some x =>
      if x ≠ 10 then some len
      else if len - 1 = 0 then some 0
      else
        match body[found - 2]? with
        | none => none
        | some y => some (if y = 13 then len - 1 - 1 else len - 1)

/-- The delimiter was found. -/
def delimited (body : Octets) (base found bodyPtr bodyLen : Nat) : Option Found :=
  if bodyLen < 2 then some ⟨none, bodyPtr, bodyLen⟩
  else
    match skipOctet body 13 bodyPtr bodyLen with
    | none => none
    | some afterCr =>
      match skipOctet body 10 afterCr.1 afterCr.2 with
      | none => none
      | some afterLf =>
        match lessLineEnd body found (found - base) with
        | none => none
        | some len => some ⟨some len, afterLf.1, afterLf.2⟩

/-- The loop of `FindBoundary`. -/
def searchBoundary (boundary body : Octets) (base bodyPtr bodyLen : Nat) : Option Found :=
  if bodyLen < boundary.length then some ⟨none, bodyPtr, bodyLen⟩
  else
    match _hchr : memchr body (boundary.headD 0) bodyPtr bodyLen with
    | none => none
    | some none => some ⟨none, bodyPtr, bodyLen⟩
    | some (some found) =>
      if bodyLen - (found - bodyPtr + 1) < boundary.length then
        searchBoundary boundary body base (bodyPtr + (found - bodyPtr + 1))
          (bodyLen - (found - bodyPtr + 1))
      else
        match memcmp body found boundary with
        | none => none
        | some true =>
          delimited body base found (bodyPtr + (found - bodyPtr + 1) + boundary.length)
            (bodyLen - (found - bodyPtr + 1) - boundary.length)
        | some false =>
          searchBoundary boundary body base (bodyPtr + (found - bodyPtr + 1))
            (bodyLen - (found - bodyPtr + 1))
termination_by bodyLen
decreasing_by
  all_goals
    cases bodyLen with
    | zero => exact nomatch _hchr
    | succ n => omega

/-- `FindBoundary`. -/
def findBoundary (boundary body : Octets) (bodyPtr bodyLen : Nat) : Option Found :=
  searchBoundary boundary body bodyPtr bodyPtr bodyLen

section Steps

variable {boundary body : Octets} {base found bodyPtr bodyLen : Nat}

theorem searchBoundary_short (h : bodyLen < boundary.length) :
    searchBoundary boundary body base bodyPtr bodyLen = some ⟨none, bodyPtr, bodyLen⟩ := by
  rw [searchBoundary.eq_def, if_pos h]

theorem searchBoundary_outside (hlong : ¬ bodyLen < boundary.length)
    (hchr : memchr body (boundary.headD 0) bodyPtr bodyLen = none) :
    searchBoundary boundary body base bodyPtr bodyLen = none := by
  rw [searchBoundary.eq_def, if_neg hlong]
  split <;> simp_all only [reduceCtorEq]

theorem searchBoundary_none (hlong : ¬ bodyLen < boundary.length)
    (hchr : memchr body (boundary.headD 0) bodyPtr bodyLen = some none) :
    searchBoundary boundary body base bodyPtr bodyLen = some ⟨none, bodyPtr, bodyLen⟩ := by
  rw [searchBoundary.eq_def, if_neg hlong]
  split <;> simp_all only [reduceCtorEq, Option.some.injEq]

theorem searchBoundary_some (hlong : ¬ bodyLen < boundary.length)
    (hchr : memchr body (boundary.headD 0) bodyPtr bodyLen = some (some found)) :
    searchBoundary boundary body base bodyPtr bodyLen =
      if bodyLen - (found - bodyPtr + 1) < boundary.length then
        searchBoundary boundary body base (bodyPtr + (found - bodyPtr + 1))
          (bodyLen - (found - bodyPtr + 1))
      else
        match memcmp body found boundary with
        | none => none
        | some true =>
          delimited body base found (bodyPtr + (found - bodyPtr + 1) + boundary.length)
            (bodyLen - (found - bodyPtr + 1) - boundary.length)
        | some false =>
          searchBoundary boundary body base (bodyPtr + (found - bodyPtr + 1))
            (bodyLen - (found - bodyPtr + 1)) := by
  rw [searchBoundary.eq_def, if_neg hlong]
  split
  next h => exact nomatch hchr.symm.trans h
  next h => exact nomatch hchr.symm.trans h
  next place h =>
    cases hchr.symm.trans h
    rfl

/-- The octet that is found is the first one of its kind. -/
theorem memchr_spec {c : UInt8} {pos len : Nat} (hend : pos + len = body.length) :
    (memchr body c pos len = some none ∧ ∀ i, pos ≤ i → body[i]? ≠ some c) ∨
      ∃ found, memchr body c pos len = some (some found) ∧ pos ≤ found ∧ found < pos + len ∧
        body[found]? = some c ∧ ∀ i, pos ≤ i → i < found → body[i]? ≠ some c := by
  induction len generalizing pos with
  | zero =>
      refine .inl ⟨rfl, fun i hi hc => ?_⟩
      rw [List.getElem?_eq_none (by omega)] at hc
      exact nomatch hc
  | succ len ih =>
      have hx : body[pos]? = some body[pos] := List.getElem?_eq_getElem (by omega)
      rw [memchr, hx]
      by_cases hc : body[pos] = c
      · rw [hc] at hx
        refine .inr ⟨pos, by simp only [hc, if_true], Nat.le_refl _, by omega, hx, fun i h h' => ?_⟩
        exact absurd h (Nat.not_le_of_lt h')
      · have hhere : body[pos]? ≠ some c := fun h => hc (Option.some.inj (hx.symm.trans h))
        have hlater (i : Nat) (hi : pos ≤ i) (hne : pos + 1 ≤ i → body[i]? ≠ some c) :
            body[i]? ≠ some c := by
          rcases Nat.eq_or_lt_of_le hi with rfl | hlt
          · exact hhere
          · exact hne hlt
        simp only [hc, if_false]
        rcases @ih (pos + 1) (by omega) with ⟨hmem, hnot⟩ | ⟨found, hmem, hge, hlt, hat, hnot⟩
        · exact .inl ⟨hmem, fun i hi => hlater i hi (hnot i)⟩
        · exact .inr ⟨found, hmem, by omega, by omega, hat,
            fun i hi hi' => hlater i hi fun h => hnot i h hi'⟩

end Steps

section Shorter

variable {boundary body : Octets} {base found bodyPtr bodyLen len bodyPtr' bodyLen' : Nat}

theorem skipOctet_le {c : UInt8} {next : Nat × Nat}
    (h : skipOctet body c bodyPtr bodyLen = some next) : next.2 ≤ bodyLen := by
  rw [skipOctet] at h
  split at h
  · exact nomatch h
  · split at h
    · cases h
      exact Nat.sub_le _ _
    · cases h
      exact Nat.le_refl _

theorem delimited_le
    (h : delimited body base found bodyPtr bodyLen = some ⟨some len, bodyPtr', bodyLen'⟩) :
    bodyLen' ≤ bodyLen := by
  rw [delimited] at h
  split at h
  · exact nomatch h
  · split at h
    · exact nomatch h
    next afterCr hcr =>
      split at h
      · exact nomatch h
      next afterLf hlf =>
        split at h
        · exact nomatch h
        · cases h
          exact Nat.le_trans (skipOctet_le hlf) (skipOctet_le hcr)

/-- What is left behind a delimiter is shorter. -/
theorem searchBoundary_lt
    (h : searchBoundary boundary body base bodyPtr bodyLen = some ⟨some len, bodyPtr', bodyLen'⟩) :
    bodyLen' < bodyLen := by
  induction bodyLen using Nat.strong_induction_on generalizing bodyPtr with
  | _ bodyLen ih =>
    by_cases hshort : bodyLen < boundary.length
    · rw [searchBoundary_short hshort] at h
      exact nomatch h
    · cases hchr : memchr body (boundary.headD 0) bodyPtr bodyLen with
      | none =>
          rw [searchBoundary_outside hshort hchr] at h
          exact nomatch h
      | some place =>
          cases place with
          | none =>
              rw [searchBoundary_none hshort hchr] at h
              exact nomatch h
          | some found =>
              have hpos : 0 < bodyLen := by
                refine Nat.pos_of_ne_zero fun hzero => ?_
                rw [hzero] at hchr
                exact nomatch hchr
              rw [searchBoundary_some hshort hchr] at h
              split at h
              · exact Nat.lt_trans (ih _ (by omega) h) (by omega)
              · split at h
                · exact nomatch h
                · exact Nat.lt_of_le_of_lt (delimited_le h) (by omega)
                · exact Nat.lt_trans (ih _ (by omega) h) (by omega)

end Shorter

/-- The loop of `Decode`: where the parts are, and how long. -/
def decodeParts (boundary body : Octets) (bodyPtr bodyLen : Nat) : Option (List (Nat × Nat)) :=
  match _hfound : findBoundary boundary body bodyPtr bodyLen with
  | none => none
  | some ⟨none, _, _⟩ => some []
  | some ⟨some len, bodyPtr', bodyLen'⟩ =>
    (decodeParts boundary body bodyPtr' bodyLen').map ((bodyPtr, len) :: ·)
termination_by bodyLen
decreasing_by exact searchBoundary_lt _hfound

/-- Two dashes and the boundary. -/
def delimiter (boundary : Octets) : Octets := 45 :: 45 :: boundary

/-- What `Decode` does with the body: the parts, none when there is no delimiter. -/
def decode (boundary body : Octets) : Option (List (Nat × Nat)) :=
  match findBoundary (delimiter boundary) body 0 body.length with
  | none => none
  | some ⟨none, _, _⟩ => some []
  | some ⟨some _, bodyPtr, bodyLen⟩ => decodeParts (delimiter boundary) body bodyPtr bodyLen

section Search

variable {boundary body : Octets} {base : Nat}

theorem memcmp_eq {pos : Nat} (h : pos + boundary.length ≤ body.length) :
    memcmp body pos boundary = some (decide (boundary <+: body.drop pos)) := by
  rw [memcmp, if_pos h, slice, Option.some.injEq, decide_eq_decide, List.prefix_iff_eq_take]
  exact eq_comm

/-- Where the first octet is not, the delimiter is not. -/
theorem not_followedAt {b : UInt8} {rest : Octets} {i : Nat} (h : body[i]? ≠ some b) :
    ¬ FollowedAt (b :: rest) body i := by
  intro hat
  rcases hat.1 with ⟨behind, hdrop⟩
  refine h ?_
  have hhead := congrArg (·[0]?) hdrop
  simp only [List.cons_append, List.getElem?_cons_zero, List.getElem?_drop, Nat.add_zero] at hhead
  exact hhead.symm

/-- What a search returns when the first delimiter is at this place. -/
def ReturnsAt (boundary body : Octets) (base : Nat) (r : Option Found) : Option Nat → Prop
  | none => ∃ bodyPtr bodyLen, r = some ⟨none, bodyPtr, bodyLen⟩
  | some place => r = delimited body base place (place + 1 + boundary.length)
      (body.length - (place + 1 + boundary.length))

/-- The first delimiter with an octet behind it. -/
def firstFrom (boundary body : Octets) (bodyPtr : Nat) : Option Nat :=
  (firstFollowed boundary (body.drop bodyPtr)).map (bodyPtr + ·)

theorem firstFrom_eq_none {bodyPtr : Nat} (h : ∀ i, bodyPtr ≤ i → ¬ FollowedAt boundary body i) :
    firstFrom boundary body bodyPtr = none := by
  rw [firstFrom, Option.map_eq_none_iff, Lib.firstFollowed_eq_none]
  intro j hj
  exact h _ (Nat.le_add_right _ _) ((Lib.followedAt_drop bodyPtr).1 hj)

theorem firstFrom_skip {bodyPtr found : Nat} (hle : bodyPtr ≤ found)
    (h : ∀ i, bodyPtr ≤ i → i ≤ found → ¬ FollowedAt boundary body i) :
    firstFrom boundary body bodyPtr = firstFrom boundary body (found + 1) := by
  have hskip : ∀ j < found + 1 - bodyPtr, ¬ FollowedAt boundary (body.drop bodyPtr) j := by
    intro j hj hat
    exact h _ (Nat.le_add_right _ _) (by omega) ((Lib.followedAt_drop bodyPtr).1 hat)
  rw [firstFrom, Lib.firstFollowed_skip hskip, List.drop_drop, Option.map_map,
    Nat.add_sub_cancel' (Nat.le_succ_of_le hle), firstFrom]
  congr 1
  funext place
  simp only [Function.comp_apply]
  omega

theorem firstFrom_eq_some {bodyPtr found : Nat} (hle : bodyPtr ≤ found)
    (hat : FollowedAt boundary body found)
    (h : ∀ i, bodyPtr ≤ i → i < found → ¬ FollowedAt boundary body i) :
    firstFrom boundary body bodyPtr = some found := by
  rw [firstFrom, Option.map_eq_some_iff]
  refine ⟨found - bodyPtr, Lib.firstFollowed_eq_some.2 ⟨?_, fun j hj hj' => ?_⟩,
    Nat.add_sub_cancel' hle⟩
  · rwa [Lib.followedAt_drop, Nat.add_sub_cancel' hle]
  · exact h _ (Nat.le_add_right _ _) (by omega) ((Lib.followedAt_drop bodyPtr).1 hj')

/-- The first delimiter is found, if there is an octet behind it. -/
theorem searchBoundary_eq (hboundary : boundary ≠ []) {bodyPtr bodyLen : Nat}
    (hend : bodyPtr + bodyLen = body.length) :
    ReturnsAt boundary body base (searchBoundary boundary body base bodyPtr bodyLen)
      (firstFrom boundary body bodyPtr) := by
  obtain ⟨b, bs, rfl⟩ := List.exists_cons_of_ne_nil hboundary
  -- induction on what is left of the body
  induction bodyLen using Nat.strong_induction_on generalizing bodyPtr with
  | _ bodyLen ih =>
    by_cases hshort : bodyLen < (b :: bs).length
    · rw [searchBoundary_short hshort, firstFrom_eq_none fun i hi hat => ?_]
      · exact ⟨_, _, rfl⟩
      · have hroom := hat.2
        omega
    · rcases @memchr_spec body b _ _ hend with ⟨hmem, hnot⟩ | ⟨found, hmem, hge, hlt, hat, hnot⟩
      · rw [searchBoundary_none hshort hmem, firstFrom_eq_none fun i hi => not_followedAt (hnot i hi)]
        exact ⟨_, _, rfl⟩
      · have hnext : bodyPtr + (found - bodyPtr + 1) = found + 1 := by omega
        have hleft : bodyLen - (found - bodyPtr + 1) = body.length - (found + 1) := by omega
        have hbefore : ∀ i, bodyPtr ≤ i → i < found → ¬ FollowedAt (b :: bs) body i :=
          fun i hi hi' => not_followedAt (hnot i hi hi')
        -- where the delimiter is not, the search goes on behind its first octet
        have hgoOn (hfound : ¬ FollowedAt (b :: bs) body found) :
            ReturnsAt (b :: bs) body base
              (searchBoundary (b :: bs) body base (found + 1) (body.length - (found + 1)))
              (firstFrom (b :: bs) body bodyPtr) := by
          rw [firstFrom_skip hge fun i hi hi' => ?_]
          · exact ih _ (by omega) (by omega)
          · rcases Nat.eq_or_lt_of_le hi' with rfl | hi'
            · exact hfound
            · exact hbefore i hi hi'
        rw [searchBoundary_some hshort hmem, hnext, hleft]
        split
        next hroom => exact hgoOn fun hat => absurd hat.2 (by omega)
        next hroom =>
          rw [memcmp_eq (by omega)]
          by_cases hstarts : (b :: bs) <+: body.drop found
          · have hfollowed : FollowedAt (b :: bs) body found := ⟨hstarts, by omega⟩
            rw [firstFrom_eq_some hge hfollowed hbefore]
            simp only [hstarts, decide_true, ReturnsAt, Nat.sub_sub]
          · simp only [hstarts, decide_false]
            exact hgoOn fun hat => hstarts hat.1

end Search

section Contents

/-- The text without this octet in front. -/
def dropFront (c : UInt8) (text : Octets) : Octets :=
  if text.head? = some c then text.tail else text

/-- The text without a line end in front. -/
def dropLineEnd (text : Octets) : Octets := dropFront 10 (dropFront 13 text)

/-- The text without this octet at its end. -/
def dropBack (c : UInt8) (text : Octets) : Octets :=
  if text.getLast? = some c then text.dropLast else text

/-- The text without a line end at its end. -/
def cutLineEnd (text : Octets) : Octets :=
  if text.getLast? = some 10 then dropBack 13 text.dropLast else text

variable {boundary body : Octets} {base found bodyPtr bodyLen : Nat}

theorem length_dropFront_le (c : UInt8) (text : Octets) :
    (dropFront c text).length ≤ text.length := by
  rw [dropFront]
  split
  · rw [List.length_tail]
    exact Nat.sub_le _ _
  · exact Nat.le_refl _

theorem length_dropLineEnd_le (text : Octets) : (dropLineEnd text).length ≤ text.length :=
  Nat.le_trans (length_dropFront_le _ _) (length_dropFront_le _ _)

theorem length_dropBack_le (c : UInt8) (text : Octets) :
    (dropBack c text).length ≤ text.length := by
  rw [dropBack]
  split
  · rw [List.length_dropLast]
    exact Nat.sub_le _ _
  · exact Nat.le_refl _

/-- What is delimited in a text, with the delimiter in front of it gone. -/
def contents (boundary text : Octets) : List Octets :=
  match firstFollowed boundary text with
  | none => []
  | some first =>
    if text.length - (first + 1 + boundary.length) < 2 then []
    else
      cutLineEnd (text.take first) ::
        contents boundary (dropLineEnd (text.drop (first + 1 + boundary.length)))
termination_by text.length
decreasing_by
  refine Nat.lt_of_le_of_lt (length_dropLineEnd_le _) ?_
  rw [List.length_drop]
  omega

theorem skipOctet_eq (c : UInt8) (h : bodyPtr < body.length) :
    ∃ next, skipOctet body c bodyPtr (body.length - bodyPtr) = some (next, body.length - next) ∧
      body.drop next = dropFront c (body.drop bodyPtr) ∧ bodyPtr ≤ next ∧ next ≤ bodyPtr + 1 := by
  rw [skipOctet, List.getElem?_eq_getElem h, dropFront, List.head?_drop,
    List.getElem?_eq_getElem h, List.tail_drop]
  by_cases hc : body[bodyPtr] = c
  · refine ⟨bodyPtr + 1, ?_, ?_, Nat.le_succ _, Nat.le_refl _⟩
    · simp only [hc, if_true, Nat.sub_sub]
    · rw [if_pos (congrArg some hc)]
  · refine ⟨bodyPtr, ?_, ?_, Nat.le_refl _, Nat.le_succ _⟩
    · simp only [hc, if_false]
    · rw [if_neg fun h => hc (Option.some.inj h)]

theorem getLast?_slice {len : Nat} (hpos : 0 < len) (h : base + len ≤ body.length) :
    (slice body base len).getLast? = body[base + len - 1]? := by
  rw [slice, List.getLast?_eq_getElem?, List.length_take, List.length_drop, List.getElem?_take,
    if_pos (by omega), List.getElem?_drop]
  congr 1
  omega

theorem dropLast_slice {len : Nat} (h : base + len ≤ body.length) :
    (slice body base len).dropLast = slice body base (len - 1) := by
  rw [slice, slice, List.dropLast_eq_take, List.take_take, List.length_take, List.length_drop]
  congr 1
  omega

/-- The length is that of the text less a line end. -/
theorem lessLineEnd_eq {len : Nat} (hfound : base + len = found) (h : found ≤ body.length) :
    ∃ len', lessLineEnd body found len = some len' ∧
      slice body base len' = cutLineEnd (slice body base len) := by
  rw [lessLineEnd]
  by_cases hzero : len = 0
  · refine ⟨0, if_pos hzero, ?_⟩
    rw [hzero]
    rfl
  have hlt : found - 1 < body.length := by omega
  rw [if_neg hzero, List.getElem?_eq_getElem hlt, cutLineEnd,
    getLast?_slice (Nat.pos_of_ne_zero hzero) (by omega), hfound, List.getElem?_eq_getElem hlt]
  by_cases hten : body[found - 1] = 10
  · rw [if_pos (congrArg some hten), dropLast_slice (by omega), dropBack]
    simp only [hten, ne_eq, not_true_eq_false, if_false]
    by_cases hone : len - 1 = 0
    · refine ⟨0, if_pos hone, ?_⟩
      rw [hone]
      rfl
    · have hlt' : found - 2 < body.length := by omega
      rw [if_neg hone, getLast?_slice (Nat.pos_of_ne_zero hone) (by omega),
        show base + (len - 1) - 1 = found - 2 by omega, List.getElem?_eq_getElem hlt']
      by_cases hcr : body[found - 2] = 13
      · refine ⟨len - 1 - 1, ?_, ?_⟩
        · simp only [hcr, if_true]
        · rw [if_pos (congrArg some hcr), dropLast_slice (by omega)]
      · refine ⟨len - 1, ?_, ?_⟩
        · simp only [hcr, if_false]
        · rw [if_neg fun h => hcr (Option.some.inj h)]
  · refine ⟨len, ?_, ?_⟩
    · simp only [hten, ne_eq, not_false_eq_true, if_true]
    · rw [if_neg fun h => hten (Option.some.inj h)]

/-- What is made of a delimiter with two more octets behind the skipped one. -/
theorem delimited_eq (hbase : base ≤ found) (hfound : found ≤ bodyPtr)
    (hroom : ¬ body.length - bodyPtr < 2) :
    ∃ len next, delimited body base found bodyPtr (body.length - bodyPtr) =
        some ⟨some len, next, body.length - next⟩ ∧
      slice body base len = cutLineEnd (slice body base (found - base)) ∧
      body.drop next = dropLineEnd (body.drop bodyPtr) ∧ next ≤ body.length := by
  obtain ⟨afterCr, hcr, hdropCr, -, hleCr⟩ := @skipOctet_eq body bodyPtr 13 (by omega)
  obtain ⟨afterLf, hlf, hdropLf, -, hleLf⟩ := @skipOctet_eq body afterCr 10 (by omega)
  obtain ⟨len, hlen, hslice⟩ :=
    @lessLineEnd_eq body base found (found - base) (Nat.add_sub_cancel' hbase) (by omega)
  refine ⟨len, afterLf, ?_, hslice, ?_, by omega⟩
  · rw [delimited, if_neg hroom, hcr]
    simp only
    rw [hlf]
    simp only
    rw [hlen]
  · rw [hdropLf, hdropCr, dropLineEnd]

theorem decodeParts_none {p l : Nat}
    (h : findBoundary boundary body bodyPtr bodyLen = some ⟨none, p, l⟩) :
    decodeParts boundary body bodyPtr bodyLen = some [] := by
  rw [decodeParts.eq_def]
  split <;> simp_all only [reduceCtorEq, Option.some.injEq, Found.mk.injEq, false_and]

theorem decodeParts_some {len p l : Nat}
    (h : findBoundary boundary body bodyPtr bodyLen = some ⟨some len, p, l⟩) :
    decodeParts boundary body bodyPtr bodyLen =
      (decodeParts boundary body p l).map ((bodyPtr, len) :: ·) := by
  rw [decodeParts.eq_def]
  split
  next h' => exact nomatch h.symm.trans h'
  next h' => exact nomatch h.symm.trans h'
  next h' =>
    cases h.symm.trans h'
    rfl

/-- The octets of what is delimited. -/
def contentsOf (body : Octets) (ranges : List (Nat × Nat)) : List Octets :=
  ranges.map fun range => slice body range.1 range.2

theorem decodeParts_eq (hboundary : boundary ≠ []) (hend : bodyPtr + bodyLen = body.length) :
    ∃ ranges, decodeParts boundary body bodyPtr bodyLen = some ranges ∧
      contentsOf body ranges = contents boundary (body.drop bodyPtr) := by
  -- induction on what is left of the body
  induction bodyLen using Nat.strong_induction_on generalizing bodyPtr with
  | _ bodyLen ih =>
    have hsearch := @searchBoundary_eq boundary body bodyPtr hboundary bodyPtr bodyLen hend
    rw [contents.eq_def]
    cases hfirst : firstFollowed boundary (body.drop bodyPtr) with
    | none =>
        rw [firstFrom, hfirst] at hsearch
        obtain ⟨p, l, hnone⟩ := hsearch
        exact ⟨[], decodeParts_none hnone, rfl⟩
    | some first =>
        rw [firstFrom, hfirst] at hsearch
        have hlast : body.length - (bodyPtr + first + 1 + boundary.length) =
            (body.drop bodyPtr).length - (first + 1 + boundary.length) := by
          rw [List.length_drop]
          omega
        simp only [Option.map_some, ReturnsAt] at hsearch ⊢
        by_cases hroom : (body.drop bodyPtr).length - (first + 1 + boundary.length) < 2
        · rw [delimited, hlast, if_pos hroom] at hsearch
          exact ⟨[], decodeParts_none hsearch, by rw [if_pos hroom]; rfl⟩
        · obtain ⟨len, next, hdelimited, hslice, hdrop, hnext⟩ :=
            @delimited_eq body bodyPtr (bodyPtr + first) (bodyPtr + first + 1 + boundary.length)
              (Nat.le_add_right _ _) (by omega) (by rwa [hlast])
          rw [hdelimited] at hsearch
          have hshorter := searchBoundary_lt hsearch
          obtain ⟨ranges, hranges, hcontents⟩ :=
            @ih (body.length - next) hshorter next (Nat.add_sub_cancel' hnext)
          refine ⟨(bodyPtr, len) :: ranges, ?_, ?_⟩
          · rw [decodeParts_some hsearch, hranges]
            rfl
          · rw [if_neg hroom, contentsOf, List.map_cons, hslice, Nat.add_sub_cancel_left, slice]
            refine congrArg₂ _ rfl ?_
            rw [List.drop_drop, ← Nat.add_assoc, ← Nat.add_assoc, ← hdrop]
            exact hcontents

/-- What is delimited in a whole body. -/
def bodyContents (delimiter body : Octets) : List Octets :=
  match firstFollowed delimiter body with
  | none => []
  | some first =>
    if body.length - (first + 1 + delimiter.length) < 2 then []
    else contents delimiter (dropLineEnd (body.drop (first + 1 + delimiter.length)))

theorem decode_eq (boundary body : Octets) :
    ∃ ranges, decode boundary body = some ranges ∧
      contentsOf body ranges = bodyContents (delimiter boundary) body := by
  have hdelimiter : delimiter boundary ≠ [] := List.cons_ne_nil _ _
  have hsearch := @searchBoundary_eq (delimiter boundary) body 0 hdelimiter 0 body.length
    (Nat.zero_add _)
  rw [decode, findBoundary, bodyContents]
  rw [firstFrom, List.drop_zero] at hsearch
  cases hfirst : firstFollowed (delimiter boundary) body with
  | none =>
      rw [hfirst] at hsearch
      obtain ⟨p, l, hnone⟩ := hsearch
      rw [hnone]
      exact ⟨[], rfl, rfl⟩
  | some first =>
      rw [hfirst] at hsearch
      simp only [Option.map_some, ReturnsAt, Nat.zero_add] at hsearch ⊢
      by_cases hroom : body.length - (first + 1 + (delimiter boundary).length) < 2
      · rw [delimited, if_pos hroom] at hsearch
        rw [hsearch, if_pos hroom]
        exact ⟨[], rfl, rfl⟩
      · obtain ⟨len, next, hdelimited, -, hdrop, hnext⟩ :=
          @delimited_eq body 0 first (first + 1 + (delimiter boundary).length)
            (Nat.zero_le _) (by omega) hroom
        rw [hsearch, hdelimited, if_neg hroom, ← hdrop]
        exact decodeParts_eq hdelimiter (Nat.add_sub_cancel' hnext)

/-- Nothing outside of the body is read. -/
theorem decode_isSome (boundary body : Octets) : (decode boundary body).isSome := by
  obtain ⟨ranges, hranges, -⟩ := decode_eq boundary body
  rw [hranges]
  rfl

end Contents

/-- A line ends with CR LF, or with LF. -/
inductive LineEnd where
  | crlf
  | lf
  deriving DecidableEq

/-- The octets of a line end. -/
def LineEnd.octets : LineEnd → Octets
  | .crlf => [13, 10]
  | .lf => [10]

/-- A boundary is within one line. -/
structure Boundary where
  text : Octets
  oneLine : 13 ∉ text ∧ 10 ∉ text

/-- What comes behind a delimiter: the parts that are left, or the dashes of the last one. -/
def afterDelimiter (delimiter lineEnd trailer : Octets) : List Octets → Octets
  | [] => 45 :: 45 :: trailer
  | part :: parts =>
    lineEnd ++ part ++ lineEnd ++ (delimiter ++ afterDelimiter delimiter lineEnd trailer parts)

/-- The line end behind the last delimiter, if it is there. -/
def trailer (lineEnd : LineEnd) (closing : Bool) : Octets := if closing then lineEnd.octets else []

/-- A body with these parts. -/
def serialise (boundary : Octets) (lineEnd : LineEnd) (closing : Bool) (parts : List Octets) :
    Octets :=
  delimiter boundary ++
    afterDelimiter (delimiter boundary) lineEnd.octets (trailer lineEnd closing) parts

/-- The parts come back, and nothing outside of the body is read. -/
def Delimits (boundary : Octets) (lineEnd : LineEnd) (closing : Bool) (parts : List Octets) :
    Prop :=
  ∃ ranges, decode boundary (serialise boundary lineEnd closing parts) = some ranges ∧
    contentsOf (serialise boundary lineEnd closing parts) ranges = parts

/-- The part has no delimiter, and the ends of a line that ends with LF do not touch it. -/
def Survives (boundary : Octets) (lineEnd : LineEnd) (part : Octets) : Prop :=
  ¬ delimiter boundary <:+: part ∧ (lineEnd = .lf →
    part.head? ≠ some 13 ∧ part.head? ≠ some 10 ∧ part.getLast? ≠ some 13)

section Serialised

variable {boundary : Octets} {lineEnd : LineEnd} {closing : Bool}

theorem lineEnd_ne_nil (lineEnd : LineEnd) : lineEnd.octets ≠ [] := by
  cases lineEnd <;> exact List.cons_ne_nil _ _

theorem not_mem_delimiter (hline : 13 ∉ boundary ∧ 10 ∉ boundary) {x : UInt8}
    (hx : x ∈ lineEnd.octets) : x ∉ delimiter boundary := by
  have hx' : x = 13 ∨ x = 10 := by
    cases lineEnd <;> simp only [LineEnd.octets, List.mem_cons, List.not_mem_nil, or_false] at hx
    · exact hx
    · exact .inr hx
  intro hmem
  rcases List.mem_cons.mp hmem with h | hmem
  · rcases hx' with h' | h' <;> exact absurd (h'.symm.trans h) (by decide)
  · rcases List.mem_cons.mp hmem with h | hmem
    · rcases hx' with h' | h' <;> exact absurd (h'.symm.trans h) (by decide)
    · rcases hx' with rfl | rfl
      · exact hline.1 hmem
      · exact hline.2 hmem

theorem afterDelimiter_ne_nil (d e t : Octets) (parts : List Octets) (he : e ≠ []) :
    afterDelimiter d e t parts ≠ [] := by
  cases parts with
  | nil => exact List.cons_ne_nil _ _
  | cons part parts =>
      intro h
      rw [afterDelimiter, List.append_assoc, List.append_assoc] at h
      exact he (List.append_eq_nil_iff.mp h).1

/-- Two octets more than the skipped one are behind each delimiter, apart from a last one that
ends the body. -/
theorem afterDelimiter_room (parts : List Octets) :
    (afterDelimiter (delimiter boundary) lineEnd.octets (trailer lineEnd closing) parts).length
        - 1 < 2 ↔ parts = [] ∧ closing = false := by
  cases parts with
  | nil =>
      rw [afterDelimiter]
      cases closing <;> cases lineEnd <;> simp [trailer, LineEnd.octets]
  | cons part parts =>
      refine iff_of_false ?_ fun h => nomatch h.1
      have hpos := List.length_pos_iff.mpr (lineEnd_ne_nil lineEnd)
      simp only [afterDelimiter, delimiter, List.length_append, List.length_cons]
      omega

/-- What is delimited when the first delimiter is at this place. -/
theorem contents_at {text rest : Octets}
    (hfirst : firstFollowed (delimiter boundary) (text ++ (delimiter boundary ++ rest)) =
      some text.length) :
    contents (delimiter boundary) (text ++ (delimiter boundary ++ rest)) =
      if rest.length - 1 < 2 then []
      else cutLineEnd text :: contents (delimiter boundary) (dropLineEnd (rest.drop 1)) := by
  have hlen : (text ++ (delimiter boundary ++ rest)).length -
      (text.length + 1 + (delimiter boundary).length) = rest.length - 1 := by
    simp only [List.length_append]
    omega
  have hdrop : (text ++ (delimiter boundary ++ rest)).drop
      (text.length + 1 + (delimiter boundary).length) = rest.drop 1 := by
    rw [← List.append_assoc, show text.length + 1 + (delimiter boundary).length =
      (text ++ delimiter boundary).length + 1 by rw [List.length_append]; omega,
      ← List.drop_drop, List.drop_left]
  rw [contents.eq_def, hfirst]
  simp only [hlen, hdrop, List.take_left]

theorem length_cutLineEnd_le (text : Octets) : (cutLineEnd text).length ≤ text.length := by
  rw [cutLineEnd]
  split
  · refine Nat.le_trans (length_dropBack_le _ _) ?_
    rw [List.length_dropLast]
    exact Nat.sub_le _ _
  · exact Nat.le_refl _

/-- A part is lost when something shorter is delimited in its place. -/
theorem contents_ne {text part : Octets} {first : Nat} {parts : List Octets}
    (hfirst : firstFollowed (delimiter boundary) text = some first)
    (h : (cutLineEnd (text.take first)).length < part.length) :
    contents (delimiter boundary) text ≠ part :: parts := by
  rw [contents.eq_def, hfirst]
  simp only
  split
  · exact (List.cons_ne_nil _ _).symm
  · intro heq
    rw [(List.cons.inj heq).1] at h
    exact absurd h (Nat.lt_irrefl _)

theorem dropFront_cons_ne {c x : UInt8} (text : Octets) (h : x ≠ c) :
    dropFront c (x :: text) = x :: text :=
  if_neg fun hx => h (Option.some.inj hx)

theorem dropFront_cons (c : UInt8) (text : Octets) : dropFront c (c :: text) = text := if_pos rfl

/-- A delimiter in a text stays where it is, or comes nearer, when a line end in front is
skipped. -/
theorem dropFront_before (c : UInt8) (hc : c ≠ 45) (before rest : Octets) :
    ∃ before', dropFront c (before ++ (delimiter boundary ++ rest)) =
      before' ++ (delimiter boundary ++ rest) ∧ before'.length ≤ before.length := by
  cases before with
  | nil => exact ⟨[], dropFront_cons_ne _ (Ne.symm hc), Nat.le_refl _⟩
  | cons x before =>
      by_cases hx : x = c
      · exact ⟨before, hx ▸ dropFront_cons _ _, Nat.le_succ _⟩
      · exact ⟨x :: before, dropFront_cons_ne _ hx, Nat.le_refl _⟩

/-- What is searched for the end of a part. -/
theorem behindDelimiter (lineEnd : LineEnd) (part rest : Octets) :
    dropLineEnd ((lineEnd.octets ++ part ++ lineEnd.octets ++ rest).drop 1) =
      match lineEnd with
      | .crlf => part ++ ([13, 10] ++ rest)
      | .lf => dropLineEnd (part ++ ([10] ++ rest)) := by
  cases lineEnd with
  | crlf =>
      rw [List.append_assoc, List.append_assoc]
      exact (congrArg (dropFront 10) (dropFront_cons_ne _ (by decide))).trans (dropFront_cons _ _)
  | lf =>
      rw [List.append_assoc, List.append_assoc]
      rfl

/-- A part with a delimiter is lost. -/
theorem contents_delimiter_within {part : Octets} {parts rest : List Octets}
    (hwithin : delimiter boundary <:+: part) :
    contents (delimiter boundary) (dropLineEnd
      ((afterDelimiter (delimiter boundary) lineEnd.octets (trailer lineEnd closing)
        (part :: parts)).drop 1)) ≠ part :: rest := by
  generalize hrest : delimiter boundary ++ afterDelimiter (delimiter boundary) lineEnd.octets
    (trailer lineEnd closing) parts = behind
  have hbehind : behind ≠ [] := by
    rw [← hrest]
    exact List.cons_ne_nil _ _
  rcases hwithin with ⟨before, after, rfl⟩
  -- the line end that is skipped is in front of the delimiter
  obtain ⟨before', text, htext, hne, hle⟩ : ∃ before' text, dropLineEnd
      ((afterDelimiter (delimiter boundary) lineEnd.octets (trailer lineEnd closing)
        ((before ++ delimiter boundary ++ after) :: parts)).drop 1) =
      (before' ++ delimiter boundary ++ after) ++ text ∧ text ≠ [] ∧
        before'.length ≤ before.length := by
    rw [afterDelimiter, behindDelimiter, hrest]
    cases lineEnd with
    | crlf => exact ⟨before, _, rfl, List.cons_ne_nil _ _, Nat.le_refl _⟩
    | lf =>
        obtain ⟨before₁, hdrop₁, hle₁⟩ := @dropFront_before boundary 13 (by decide) before
          (after ++ ([10] ++ behind))
        obtain ⟨before₂, hdrop₂, hle₂⟩ := @dropFront_before boundary 10 (by decide) before₁
          (after ++ ([10] ++ behind))
        refine ⟨before₂, [10] ++ behind, ?_, List.cons_ne_nil _ _, Nat.le_trans hle₂ hle₁⟩
        simp only [List.append_assoc] at hdrop₁ hdrop₂ ⊢
        rw [dropLineEnd, hdrop₁, hdrop₂]
  rw [htext]
  obtain ⟨first, hroom, hfirst⟩ := Lib.firstFollowed_within hne
    (⟨before', after, rfl⟩ : delimiter boundary <:+: before' ++ delimiter boundary ++ after)
  refine contents_ne hfirst (Nat.lt_of_le_of_lt (length_cutLineEnd_le _) ?_)
  simp only [delimiter, List.length_append, List.length_cons, List.length_take] at hroom ⊢
  omega

theorem cutLineEnd_crlf (part : Octets) : cutLineEnd (part ++ [13, 10]) = part := by
  rw [show part ++ [13, 10] = (part ++ [13]) ++ [10] by rw [List.append_assoc]; rfl, cutLineEnd,
    List.getLast?_concat, if_pos rfl, List.dropLast_concat, dropBack, List.getLast?_concat,
    if_pos rfl, List.dropLast_concat]

theorem cutLineEnd_lf (part : Octets) : cutLineEnd (part ++ [10]) = dropBack 13 part := by
  rw [cutLineEnd, List.getLast?_concat, if_pos rfl, List.dropLast_concat]

theorem dropBack_eq_self {c : UInt8} {part : Octets} :
    dropBack c part = part ↔ part.getLast? ≠ some c := by
  rw [dropBack]
  split
  next h =>
    refine iff_of_false (fun heq => ?_) fun hne => hne h
    have hlen := congrArg List.length heq
    rw [List.length_dropLast] at hlen
    have hnil : part = [] := List.length_eq_zero_iff.mp (by omega)
    rw [hnil] at h
    exact nomatch h
  next h => exact iff_of_true rfl h

/-- What is in front of the line end is lost when it is shorter than the part. -/
theorem contents_suffix {q part rest : Octets} {parts : List Octets}
    (hline : 13 ∉ boundary ∧ 10 ∉ boundary) (hsuffix : q <:+ part)
    (hshort : q.length < part.length) (hwithin : ¬ delimiter boundary <:+: part)
    (hrest : rest ≠ []) :
    contents (delimiter boundary) (q ++ ([10] ++ (delimiter boundary ++ rest))) ≠
      part :: parts := by
  have hfirst := @Lib.firstFollowed_separated _ (delimiter boundary) q [10] rest _
    (List.cons_ne_nil _ _) (List.cons_ne_nil _ _) hrest
    (fun x hx => @not_mem_delimiter boundary .lf hline x hx)
    (fun h => hwithin (h.trans hsuffix.isInfix))
  rw [← List.append_assoc]
  refine contents_ne hfirst (Nat.lt_of_le_of_lt ?_ hshort)
  rw [← List.length_append, List.take_left, cutLineEnd_lf]
  exact length_dropBack_le _ _

/-- With LF, a part that begins with a CR or a LF is lost. -/
theorem contents_touched {part rest : Octets} {parts : List Octets}
    (hline : 13 ∉ boundary ∧ 10 ∉ boundary) (hwithin : ¬ delimiter boundary <:+: part)
    (hrest : rest ≠ []) (hhead : part.head? = some 13 ∨ part.head? = some 10) :
    contents (delimiter boundary)
      (dropLineEnd (part ++ ([10] ++ (delimiter boundary ++ rest)))) ≠ part :: parts := by
  cases part with
  | nil => exact absurd hhead fun h => h.elim (fun h => (nomatch h)) fun h => nomatch h
  | cons c behind =>
      have hbehind : behind <:+ c :: behind := List.suffix_cons c behind
      have hlt : behind.length < (c :: behind).length := Nat.lt_succ_self _
      rcases hhead with hc | hc <;> cases hc
      · rw [dropLineEnd, List.cons_append, dropFront_cons]
        cases behind with
        | nil =>
            have hskip : dropFront 10 ([] ++ ([10] ++ (delimiter boundary ++ rest))) =
                delimiter boundary ++ rest := dropFront_cons _ _
            rw [hskip]
            exact contents_ne (Lib.firstFollowed_here hrest) (Nat.zero_lt_succ _)
        | cons y behind =>
            by_cases hy : y = 10
            · subst hy
              rw [List.cons_append, dropFront_cons]
              refine contents_suffix hline ((List.suffix_cons _ _).trans hbehind) ?_ hwithin hrest
              exact Nat.lt_trans (Nat.lt_succ_self _) hlt
            · rw [List.cons_append, dropFront_cons_ne _ hy, ← List.cons_append]
              exact contents_suffix hline hbehind hlt hwithin hrest
      · rw [dropLineEnd, List.cons_append, dropFront_cons_ne _ (by decide), dropFront_cons]
        exact contents_suffix hline hbehind hlt hwithin hrest

/-- What is made of a part. -/
def partContents (lineEnd : LineEnd) (part : Octets) : Octets :=
  match lineEnd with
  | .crlf => part
  | .lf => dropBack 13 part

theorem partContents_eq_self {part : Octets} :
    partContents lineEnd part = part ↔ (lineEnd = .lf → part.getLast? ≠ some 13) := by
  cases lineEnd with
  | crlf => exact iff_of_true rfl fun h => nomatch h
  | lf => exact dropBack_eq_self.trans ⟨fun h _ => h, fun h => h rfl⟩

/-- A part that is not touched in front is delimited as far as a CR at its end. -/
theorem contents_untouched {part rest : Octets} (hline : 13 ∉ boundary ∧ 10 ∉ boundary)
    (hwithin : ¬ delimiter boundary <:+: part) (hrest : rest ≠ [])
    (hhead : lineEnd = .lf → part.head? ≠ some 13 ∧ part.head? ≠ some 10) :
    contents (delimiter boundary) (dropLineEnd
        ((lineEnd.octets ++ part ++ lineEnd.octets ++ (delimiter boundary ++ rest)).drop 1)) =
      if rest.length - 1 < 2 then []
      else partContents lineEnd part ::
        contents (delimiter boundary) (dropLineEnd (rest.drop 1)) := by
  have hfirst := @Lib.firstFollowed_separated _ (delimiter boundary) part lineEnd.octets rest _
    (List.cons_ne_nil _ _) (lineEnd_ne_nil lineEnd) hrest
    (fun x hx => not_mem_delimiter hline hx) hwithin
  rw [← List.length_append] at hfirst
  have hcontents := contents_at hfirst
  rw [behindDelimiter]
  cases lineEnd with
  | crlf =>
      rw [List.append_assoc] at hcontents
      refine hcontents.trans ?_
      rw [LineEnd.octets, cutLineEnd_crlf, partContents]
  | lf =>
      cases part with
      | nil =>
          have hskip : dropLineEnd ([] ++ ([10] ++ (delimiter boundary ++ rest))) =
              delimiter boundary ++ rest := dropFront_cons _ _
          have hhere := @Lib.firstFollowed_here _ (delimiter boundary) rest _ hrest
          exact (congrArg _ hskip).trans (@contents_at _ [] _ hhere)
      | cons c behind =>
          obtain ⟨hcr, hlf⟩ := hhead rfl
          have hkeep : dropLineEnd (c :: behind ++ ([10] ++ (delimiter boundary ++ rest))) =
              c :: behind ++ ([10] ++ (delimiter boundary ++ rest)) := by
            rw [dropLineEnd, List.cons_append, dropFront_cons_ne _ fun h => hcr (congrArg some h),
              dropFront_cons_ne _ fun h => hlf (congrArg some h)]
          rw [List.append_assoc] at hcontents
          simp only [hkeep]
          refine hcontents.trans ?_
          rw [LineEnd.octets, cutLineEnd_lf, partContents]

/-- The parts behind a delimiter come back. -/
theorem contents_iff (hline : 13 ∉ boundary ∧ 10 ∉ boundary) (parts : List Octets) :
    contents (delimiter boundary) (dropLineEnd
        ((afterDelimiter (delimiter boundary) lineEnd.octets (trailer lineEnd closing)
          parts).drop 1)) = parts ↔
      (parts ≠ [] → closing = true) ∧ ∀ part ∈ parts, Survives boundary lineEnd part := by
  induction parts with
  | nil =>
      refine iff_of_true ?_ ⟨fun h => absurd rfl h, fun _ h => absurd h List.not_mem_nil⟩
      -- one dash is left, and the line end
      have hdash : dropLineEnd ((afterDelimiter (delimiter boundary) lineEnd.octets
          (trailer lineEnd closing) []).drop 1) = 45 :: trailer lineEnd closing :=
        (congrArg (dropFront 10) (dropFront_cons_ne _ (by decide))).trans
          (dropFront_cons_ne _ (by decide))
      have hnone : firstFollowed (delimiter boundary) (45 :: trailer lineEnd closing) = none := by
        rw [Lib.firstFollowed_eq_none]
        intro j hat
        have hroom := hat.2
        have hstarts := hat.1
        cases closing <;> cases lineEnd <;>
          simp only [trailer, LineEnd.octets, delimiter, List.length_cons, List.length_nil,
            if_true, Bool.false_eq_true, if_false] at hroom hstarts
        all_goals try omega
        have hj : j = 0 := by omega
        rw [hj, List.drop_zero, List.cons_prefix_cons, List.cons_prefix_cons] at hstarts
        exact absurd hstarts.2.1 (by decide)
      rw [hdash, contents.eq_def, hnone]
  | cons part parts ih =>
      rw [List.forall_mem_cons]
      by_cases hwithin : delimiter boundary <:+: part
      · exact iff_of_false (contents_delimiter_within hwithin) fun h => h.2.1.1 hwithin
      have hrest := afterDelimiter_ne_nil (delimiter boundary) lineEnd.octets
        (trailer lineEnd closing) parts (lineEnd_ne_nil lineEnd)
      rw [afterDelimiter]
      by_cases hhead : lineEnd = .lf → part.head? ≠ some 13 ∧ part.head? ≠ some 10
      · rw [contents_untouched hline hwithin hrest hhead]
        by_cases hroom : (afterDelimiter (delimiter boundary) lineEnd.octets
            (trailer lineEnd closing) parts).length - 1 < 2
        · obtain ⟨-, hopen⟩ := afterDelimiter_room parts |>.1 hroom
          rw [if_pos hroom]
          refine iff_of_false (List.cons_ne_nil _ _).symm fun h => ?_
          exact absurd (h.1 (List.cons_ne_nil _ _)) (by rw [hopen]; decide)
        · have hopen : parts = [] → closing = true := fun hnil =>
            (Bool.eq_false_or_eq_true closing).resolve_right fun h =>
              hroom (afterDelimiter_room parts |>.2 ⟨hnil, h⟩)
          rw [if_neg hroom, List.cons.injEq, ih, partContents_eq_self]
          refine ⟨fun h => ⟨fun _ => ?_, ⟨hwithin, fun hlf => ?_⟩, h.2.2⟩,
            fun h => ⟨fun hlf => (h.2.1.2 hlf).2.2, fun _ => h.1 (List.cons_ne_nil _ _), h.2.2⟩⟩
          · exact (Classical.em (parts = [])).elim hopen h.2.1
          · exact ⟨(hhead hlf).1, (hhead hlf).2, h.1 hlf⟩
      · rw [Classical.not_imp, not_and_or, Classical.not_not, Classical.not_not] at hhead
        obtain ⟨rfl, htouched⟩ := hhead
        refine iff_of_false ?_ fun h => ?_
        · rw [behindDelimiter]
          exact contents_touched hline hwithin hrest htouched
        · exact htouched.elim (h.2.1.2 rfl).1 (h.2.1.2 rfl).2.1

end Serialised

/-- What is delimited in a serialised body is what is delimited behind its first delimiter. -/
theorem delimits_eq (boundary : Octets) (lineEnd : LineEnd) (closing : Bool) (part : Octets)
    (parts : List Octets) :
    Delimits boundary lineEnd closing (part :: parts) ↔
      contents (delimiter boundary) (dropLineEnd
        ((afterDelimiter (delimiter boundary) lineEnd.octets (trailer lineEnd closing)
          (part :: parts)).drop 1)) = part :: parts := by
  have hrest := afterDelimiter_ne_nil (delimiter boundary) lineEnd.octets
    (trailer lineEnd closing) (part :: parts) (lineEnd_ne_nil lineEnd)
  have hroom := fun h => List.cons_ne_nil part parts
    ((@afterDelimiter_room boundary lineEnd closing (part :: parts)).1 h).1
  have hbody : bodyContents (delimiter boundary)
      (serialise boundary lineEnd closing (part :: parts)) =
      contents (delimiter boundary) (dropLineEnd
        ((afterDelimiter (delimiter boundary) lineEnd.octets (trailer lineEnd closing)
          (part :: parts)).drop 1)) := by
    rw [bodyContents, serialise, Lib.firstFollowed_here hrest]
    simp only [Nat.zero_add]
    rw [List.length_append, Nat.add_comm 1, Nat.add_sub_add_left, if_neg hroom, ← List.drop_drop,
      List.drop_left]
  obtain ⟨ranges, hranges, heq⟩ :=
    decode_eq boundary (serialise boundary lineEnd closing (part :: parts))
  rw [hbody] at heq
  refine ⟨fun h => ?_, fun h => ⟨ranges, hranges, heq.trans h⟩⟩
  rcases h with ⟨ranges', hranges', hparts⟩
  cases hranges.symm.trans hranges'
  exact heq.symm.trans hparts

/-- The parts come back exactly when a line end is behind the last delimiter, and each part has no
delimiter and is not touched by the ends of its lines. -/
theorem delimits_iff (boundary : Boundary) (lineEnd : LineEnd) (closing : Bool) (part : Octets)
    (parts : List Octets) :
    (decode boundary.text (serialise boundary.text lineEnd closing (part :: parts))).isSome ∧
      (Delimits boundary.text lineEnd closing (part :: parts) ↔
        closing = true ∧ ∀ p ∈ part :: parts, Survives boundary.text lineEnd p) := by
  refine ⟨decode_isSome _ _, ?_⟩
  rw [delimits_eq, contents_iff boundary.oneLine]
  exact and_congr_left fun _ => ⟨fun h => h (List.cons_ne_nil _ _), fun h _ => h⟩

/-- Without a line end behind the last delimiter the last part is lost. -/
theorem not_delimits_open :
    ¬ ∀ (boundary : Boundary) (lineEnd : LineEnd) (closing : Bool) (part : Octets)
      (parts : List Octets), (∀ p ∈ part :: parts, ¬ delimiter boundary.text <:+: p) →
        Delimits boundary.text lineEnd closing (part :: parts) := by
  intro hall
  have hwithin : ∀ p ∈ [([120] : Octets)], ¬ delimiter [98] <:+: p := by
    intro p hp h
    rw [List.mem_singleton.mp hp] at h
    exact absurd h.length_le (by decide)
  have hopen := hall ⟨[98], by decide⟩ .crlf false [120] [] hwithin
  rw [delimits_eq, contents_iff (by decide)] at hopen
  exact nomatch hopen.1 (List.cons_ne_nil _ _)

end Mime

end CryptoOpal

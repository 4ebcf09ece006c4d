import Mathlib.Data.List.Basic
import Mathlib.Data.List.Infix

/-!
# Searching for a Word

The first place of a word in a text behind which there is at least one more letter.

A word that does not occur in a text is found just behind it, when a separator that shares no
letter with the word comes in between. Where the word does occur, it is found there or before.

## Main definitions

* `FollowedAt`: The word is at this place, and a letter behind it.
* `firstFollowed`: The first such place.

## Theorems

* `firstFollowed_eq_some`, `firstFollowed_eq_none`: What is found.
* `firstFollowed_skip`: The search may start later.
* `infix_of_prefix_drop`: A word in front of the separator is in the text.
* `firstFollowed_separated`: What is found behind a text.
* `firstFollowed_le`: What is found in a text with the word.
-/

namespace CryptoOpal

namespace Lib

variable {α : Type}

/-- The word is at this place, and a letter behind it. -/
def FollowedAt (word text : List α) (place : Nat) : Prop :=
  word <+: text.drop place ∧ place + word.length < text.length

instance [DecidableEq α] (word text : List α) (place : Nat) : Decidable (FollowedAt word text place) :=
  inferInstanceAs (Decidable (_ ∧ _))

/-- The first place of the word with a letter behind it. -/
def firstFollowed [DecidableEq α] (word : List α) : List α → Option Nat
  | [] => none
  | x :: text =>
    if FollowedAt word (x :: text) 0 then some 0 else (firstFollowed word text).map (· + 1)

section Found

variable {word text : List α} {place : Nat}

theorem followedAt_cons_succ (x : α) :
    FollowedAt word (x :: text) (place + 1) ↔ FollowedAt word text place := by
  rw [FollowedAt, FollowedAt, List.drop_succ_cons, List.length_cons]
  refine and_congr_right fun _ => ?_
  omega

theorem not_followedAt_nil : ¬ FollowedAt word ([] : List α) place :=
  fun h => absurd h.2 (Nat.not_lt_zero _)

theorem followedAt_drop (skip : Nat) :
    FollowedAt word (text.drop skip) place ↔ FollowedAt word text (skip + place) := by
  rw [FollowedAt, FollowedAt, List.drop_drop, List.length_drop]
  refine and_congr_right fun _ => ?_
  omega

variable [DecidableEq α]

theorem firstFollowed_eq_some :
    firstFollowed word text = some place ↔
      FollowedAt word text place ∧ ∀ j < place, ¬ FollowedAt word text j := by
  induction text generalizing place with
  | nil =>
      rw [firstFollowed]
      exact ⟨fun h => (nomatch h), fun h => absurd h.1 not_followedAt_nil⟩
  | cons x text ih =>
      rw [firstFollowed]
      split
      next hhere =>
        refine ⟨fun h => ?_, fun h => ?_⟩
        · cases h
          exact ⟨hhere, fun j hj => absurd hj (Nat.not_lt_zero j)⟩
        · cases place with
          | zero => rfl
          | succ place => exact absurd hhere (h.2 0 (Nat.succ_pos place))
      next hhere =>
        cases place with
        | zero =>
            refine ⟨fun h => ?_, fun h => absurd h.1 hhere⟩
            rcases Option.map_eq_some_iff.mp h with ⟨k, -, hk⟩
            exact nomatch hk
        | succ place =>
            rw [followedAt_cons_succ, Option.map_eq_some_iff]
            refine ⟨fun h => ?_, fun h => ⟨place, ih.2 ⟨h.1, fun j hj => ?_⟩, rfl⟩⟩
            · rcases h with ⟨k, hk, hplace⟩
              cases hplace
              refine ⟨(ih.1 hk).1, fun j hj => ?_⟩
              cases j with
              | zero => exact hhere
              | succ j =>
                  rw [followedAt_cons_succ]
                  exact (ih.1 hk).2 j (Nat.lt_of_succ_lt_succ hj)
            · rw [← followedAt_cons_succ x]
              exact h.2 (j + 1) (Nat.succ_lt_succ hj)

theorem firstFollowed_eq_none :
    firstFollowed word text = none ↔ ∀ j, ¬ FollowedAt word text j := by
  induction text with
  | nil => exact iff_of_true rfl fun j => not_followedAt_nil
  | cons x text ih =>
      rw [firstFollowed]
      split
      next hhere => exact ⟨fun h => (nomatch h), fun h => absurd hhere (h 0)⟩
      next hhere =>
        rw [Option.map_eq_none_iff, ih]
        refine ⟨fun h j => ?_, fun h j => ?_⟩
        · cases j with
          | zero => exact hhere
          | succ j =>
              rw [followedAt_cons_succ]
              exact h j
        · rw [← followedAt_cons_succ x]
          exact h (j + 1)

/-- Where the word occurs, it is found there or before. -/
theorem firstFollowed_le (h : FollowedAt word text place) :
    ∃ first ≤ place, firstFollowed word text = some first := by
  cases hfirst : firstFollowed word text with
  | none => exact absurd h (firstFollowed_eq_none.1 hfirst place)
  | some first =>
      refine ⟨first, Nat.le_of_not_lt fun hlt => ?_, rfl⟩
      exact (firstFollowed_eq_some.1 hfirst).2 place hlt h

/-- The search may start later. -/
theorem firstFollowed_skip {skip : Nat} (h : ∀ j < skip, ¬ FollowedAt word text j) :
    firstFollowed word text = (firstFollowed word (text.drop skip)).map (skip + ·) := by
  cases hfirst : firstFollowed word (text.drop skip) with
  | none =>
      rw [Option.map_none, firstFollowed_eq_none]
      intro j hj
      rcases Nat.lt_or_ge j skip with hlt | hge
      · exact h j hlt hj
      · refine firstFollowed_eq_none.1 hfirst (j - skip) ((followedAt_drop skip).2 ?_)
        rwa [Nat.add_sub_cancel' hge]
  | some first =>
      obtain ⟨hat, hbefore⟩ := firstFollowed_eq_some.1 hfirst
      rw [Option.map_some, firstFollowed_eq_some]
      refine ⟨(followedAt_drop skip).1 hat, fun j hj => ?_⟩
      rcases Nat.lt_or_ge j skip with hlt | hge
      · exact h j hlt
      · have hj' := hbefore (j - skip) (by omega)
        rwa [followedAt_drop, Nat.add_sub_cancel' hge] at hj'

end Found

section Separated

variable {word text separator rest : List α} {place : Nat}

/-- A word that shares no letter with the separator is in the text when it is in front of the
separator's end. -/
theorem infix_of_prefix_drop (hword : word ≠ []) (hseparator : separator ≠ [])
    (hshare : ∀ x ∈ separator, x ∉ word) (hplace : place < text.length + separator.length)
    (h : word <+: (text ++ separator ++ rest).drop place) : word <:+: text := by
  have hpos := List.length_pos_iff.mpr hword
  have hlen := List.length_pos_iff.mpr hseparator
  have hget : ∀ k < word.length, (text ++ separator ++ rest)[place + k]? = word[k]? := by
    intro k hk
    rw [← List.getElem?_drop, List.prefix_iff_eq_take.mp h, List.getElem?_take]
    rw [List.prefix_iff_eq_take.mp h] at hk
    rw [if_pos ?_]
    rw [List.length_take] at hk
    exact Nat.lt_of_lt_of_le hk (Nat.min_le_left _ _)
  rcases Nat.lt_or_ge text.length (place + word.length) with hover | hin
  · -- the word covers a letter of the separator
    obtain ⟨k, hk, hlow, hhigh⟩ : ∃ k < word.length,
        text.length ≤ place + k ∧ place + k - text.length < separator.length :=
      ⟨text.length - place, by omega, by omega, by omega⟩
    have hletter := hget _ hk
    rw [List.append_assoc, List.getElem?_append_right hlow,
      List.getElem?_append_left hhigh, List.getElem?_eq_getElem hhigh,
      List.getElem?_eq_getElem hk, Option.some.injEq] at hletter
    refine absurd ?_ (hshare _ (List.getElem_mem hhigh))
    rw [hletter]
    exact List.getElem_mem hk
  · rw [List.append_assoc, List.drop_append_of_le_length (by omega)] at h
    have htext : word <+: text.drop place :=
      List.prefix_of_prefix_length_le h (List.prefix_append _ _) (by
        rw [List.length_drop]
        omega)
    exact htext.isInfix.trans (List.drop_suffix place text).isInfix

variable [DecidableEq α]

/-- A word that is not in the text is found behind the separator. -/
theorem firstFollowed_separated (hword : word ≠ []) (hseparator : separator ≠ [])
    (hrest : rest ≠ []) (hshare : ∀ x ∈ separator, x ∉ word) (h : ¬ word <:+: text) :
    firstFollowed word (text ++ separator ++ (word ++ rest)) =
      some (text.length + separator.length) := by
  rw [firstFollowed_eq_some]
  refine ⟨⟨?_, ?_⟩, fun j hj hat => h (infix_of_prefix_drop hword hseparator hshare hj hat.1)⟩
  · rw [← List.length_append, List.drop_left]
    exact List.prefix_append _ _
  · have hpos := List.length_pos_iff.mpr hrest
    simp only [List.length_append]
    omega

theorem firstFollowed_here (hrest : rest ≠ []) : firstFollowed word (word ++ rest) = some 0 := by
  rw [firstFollowed_eq_some]
  refine ⟨⟨List.prefix_append _ _, ?_⟩, fun j hj => absurd hj (Nat.not_lt_zero j)⟩
  have hpos := List.length_pos_iff.mpr hrest
  rw [List.length_append]
  omega

/-- A word that is in the text is found in it. -/
theorem firstFollowed_within (hrest : rest ≠ []) (h : word <:+: text) :
    ∃ first, first + word.length ≤ text.length ∧ firstFollowed word (text ++ rest) = some first := by
  rcases h with ⟨before, behind, rfl⟩
  have hat : FollowedAt word (before ++ word ++ behind ++ rest) before.length := by
    refine ⟨?_, ?_⟩
    · rw [List.append_assoc, List.append_assoc, List.drop_left]
      exact List.prefix_append _ _
    · have hpos := List.length_pos_iff.mpr hrest
      simp only [List.length_append]
      omega
  obtain ⟨first, hle, hfirst⟩ := firstFollowed_le hat
  refine ⟨first, ?_, hfirst⟩
  simp only [List.length_append]
  omega

end Separated

end Lib

end CryptoOpal

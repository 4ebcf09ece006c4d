import Mathlib.Algebra.BigOperators.Group.List.Basic
import Mathlib.Order.Bounds.Basic
import Mathlib.Tactic.Common

/-!
# Windows of a Text

A window is as many letters of a text as a word has, from some place on. The sum of its weights
is carried from a place to the next one, or back, by the letter that comes in and the one that
goes out.

A search that walks over the places in order, forwards or backwards, finds the first or the last
place with a property.

## Main definitions

* `window`: The letters from a place on.
* `weight`: The sum of their weights.
* `IsFirst`, `IsLast`: What a search finds from a place on, or up to a place.

## Theorems

* `weight_succ`: The window moves by one letter.
* `weight_eq`: A window that reads like the word weighs as much.
* `IsFirst.differ`: When a search that is wrong about some places is right.
* `IsFirst.iff`, `IsLast.iff`: What is found is the least, or the greatest.
-/

namespace CryptoOpal

namespace Lib

variable {α β γ : Type}

/-- As many letters of the text from a place on. -/
def window (text : List α) (place n : Nat) : List α := (text.drop place).take n

/-- The sum of the weights of a text. -/
def weight [AddCommGroup γ] (f : α → γ) (text : List α) : γ := (text.map f).sum

section Window

variable {text word : List α} {place n : Nat}

theorem window_cons (h : place < text.length) :
    window text place (n + 1) = text[place] :: window text (place + 1) n := by
  rw [window, List.drop_eq_getElem_cons h, List.take_succ_cons, window]

theorem window_concat (h : place + n < text.length) :
    window text place (n + 1) = window text place n ++ [text[place + n]] := by
  rw [window, List.take_succ_eq_append_getElem (by rw [List.length_drop]; omega), List.getElem_drop, window]

variable [AddCommGroup γ] (f : α → γ)

theorem weight_concat (x : α) : weight f (text ++ [x]) = weight f text + f x := by
  rw [weight, List.map_append, List.sum_append, List.map_singleton, List.sum_singleton, weight]

theorem weight_cons (x : α) : weight f (x :: text) = f x + weight f text := by
  rw [weight, List.map_cons, List.sum_cons, weight]

/-- The window moves by one letter. -/
theorem weight_succ (h : place + n < text.length) :
    weight f (window text (place + 1) n) + f text[place] =
      weight f (window text place n) + f text[place + n] := by
  have hlong : f text[place] + weight f (window text (place + 1) n) =
      weight f (window text place n) + f text[place + n] := by
    rw [← weight_cons, ← window_cons, window_concat h, weight_concat]
  rw [add_comm, hlong]

/-- Texts with the same folded letters weigh the same. -/
theorem weight_eq (fold : α → β) (g : β → γ) (h : text.map fold = word.map fold) :
    weight (g ∘ fold) text = weight (g ∘ fold) word := by
  rw [weight, weight, ← List.map_map, ← List.map_map, h]

end Window

/-- What a search for the first place with a property finds, from a place on. -/
def IsFirst (P : Nat → Prop) (start : Nat) : Option Nat → Prop
  | some p => IsLeast {p | start ≤ p ∧ P p} p
  | none => ∀ p, start ≤ p → ¬ P p

/-- What a search for the last place with a property finds, up to a place. -/
def IsLast (P : Nat → Prop) (start : Nat) : Option Nat → Prop
  | some p => IsGreatest {p | p ≤ start ∧ P p} p
  | none => ∀ p, p ≤ start → ¬ P p

section Search

variable {P : Nat → Prop} {start : Nat} {r : Option Nat}

theorem IsFirst.here (h : P start) : IsFirst P start (some start) :=
  ⟨⟨Nat.le_refl start, h⟩, fun _ hq => hq.1⟩

theorem IsFirst.next (hno : ¬ P start) (h : IsFirst P (start + 1) r) : IsFirst P start r := by
  have hlater : ∀ q, start ≤ q → P q → start + 1 ≤ q := by
    intro q hq hP
    refine Nat.lt_of_le_of_ne hq fun heq => hno ?_
    rw [heq]
    exact hP
  cases r with
  | none => exact fun q hq hP => h q (hlater q hq hP) hP
  | some p =>
      exact ⟨⟨Nat.le_of_succ_le h.1.1, h.1.2⟩, fun q hq => h.2 ⟨hlater q hq.1 hq.2, hq.2⟩⟩

/-- A search that begins at a place finds what a search of the rest finds. -/
theorem IsFirst.shift {Q : Nat → Prop} (hshift : ∀ n, Q (start + n) ↔ P n) (h : IsFirst P 0 r) :
    IsFirst Q start (r.map (start + ·)) := by
  cases r with
  | none =>
      intro q hq hQ
      rw [← Nat.add_sub_cancel' hq] at hQ
      exact h _ (Nat.zero_le _) ((hshift _).mp hQ)
  | some p =>
      refine ⟨⟨Nat.le_add_right _ _, (hshift p).mpr h.1.2⟩, fun q hq => ?_⟩
      rcases hq with ⟨hle, hQ⟩
      rw [← Nat.add_sub_cancel' hle] at hQ ⊢
      exact Nat.add_le_add_left (h.2 ⟨Nat.zero_le _, (hshift _).mp hQ⟩) start

theorem IsFirst.unique {r' : Option Nat} (h : IsFirst P start r) (h' : IsFirst P start r') :
    r = r' := by
  cases r with
  | none =>
      cases r' with
      | none => rfl
      | some p => exact absurd h'.1.2 (h p h'.1.1)
  | some q =>
      cases r' with
      | none => exact absurd h.1.2 (h' q h.1.1)
      | some p => rw [IsLeast.unique h h']

/-- A search that is wrong about some places is right when a place that is looked for comes in
    front of each of them. -/
theorem IsFirst.differ {Q wrong : Nat → Prop}
    (hsame : ∀ i, ¬ wrong i → (Q i ↔ P i)) (hdiff : ∀ i, wrong i → (Q i ↔ ¬ P i))
    (h : IsFirst Q start r) :
    IsFirst P start r ↔ ∀ i, start ≤ i → wrong i → ∃ j, start ≤ j ∧ j < i ∧ P j := by
  constructor
  · intro hP i hi hwrong
    by_cases hPi : P i
    · cases r with
      | none => exact absurd hPi (hP i hi)
      | some c =>
          have hne : c ≠ i := fun hci => (hdiff i hwrong).mp (hci ▸ h.1.2) hPi
          exact ⟨c, hP.1.1, Nat.lt_of_le_of_ne (hP.2 ⟨hi, hPi⟩) hne, hP.1.2⟩
    · have hQi := (hdiff i hwrong).mpr hPi
      cases r with
      | none => exact absurd hQi (h i hi)
      | some c =>
          have hne : c ≠ i := fun hci => hPi (hci ▸ hP.1.2)
          exact ⟨c, hP.1.1, Nat.lt_of_le_of_ne (h.2 ⟨hi, hQi⟩) hne, hP.1.2⟩
  · intro hearlier
    -- Up to the place that is found, the search is not wrong.
    have hright : ∀ i, start ≤ i → (∀ j, start ≤ j → j < i → ¬ Q j) → ¬ wrong i := by
      intro i
      induction i using Nat.strong_induction_on with
      | _ i ih =>
          intro hi hnone hwrong
          rcases hearlier i hi hwrong with ⟨j, hj, hlt, hPj⟩
          have hjright := ih j hlt hj fun k hk hkj => hnone k hk (Nat.lt_trans hkj hlt)
          exact hnone j hj hlt ((hsame j hjright).mpr hPj)
    cases r with
    | none =>
        intro i hi hPi
        have hi' := hright i hi fun j hj _ => h j hj
        exact h i hi ((hsame i hi').mpr hPi)
    | some c =>
        have hbefore : ∀ j, start ≤ j → j < c → ¬ Q j := fun j hj hlt hQ =>
          absurd (h.2 ⟨hj, hQ⟩) (Nat.not_le_of_lt hlt)
        refine ⟨⟨h.1.1, (hsame c (hright c h.1.1 hbefore)).mp h.1.2⟩, fun i hi => ?_⟩
        refine Nat.le_of_not_lt fun hlt => ?_
        have hiright := hright i hi.1 fun j hj hji => hbefore j hj (Nat.lt_trans hji hlt)
        exact hbefore i hi.1 hlt ((hsame i hiright).mpr hi.2)

theorem IsFirst.iff (h : IsFirst P start r) :
    (∀ p, r = some p ↔ IsLeast {p | start ≤ p ∧ P p} p) ∧
      (r = none ↔ ∀ p, start ≤ p → ¬ P p) := by
  cases r with
  | none =>
      refine ⟨fun p => ⟨fun hp => (nomatch hp), fun hp => absurd hp.1.2 (h p hp.1.1)⟩, ?_⟩
      exact iff_of_true rfl h
  | some q =>
      refine ⟨fun p => ⟨fun hp => ?_, fun hp => ?_⟩, fun hq => (nomatch hq), fun hno => ?_⟩
      · cases hp
        exact h
      · rw [IsLeast.unique h hp]
      · exact absurd h.1.2 (hno q h.1.1)

theorem IsLast.here (h : P start) : IsLast P start (some start) :=
  ⟨⟨Nat.le_refl start, h⟩, fun _ hq => hq.1⟩

theorem IsLast.zero (h : ¬ P 0) : IsLast P 0 none := by
  intro p hp
  rw [Nat.le_zero.mp hp]
  exact h

theorem IsLast.next (hno : ¬ P (start + 1)) (h : IsLast P start r) : IsLast P (start + 1) r := by
  have hbefore : ∀ q, q ≤ start + 1 → P q → q ≤ start := by
    intro q hq hP
    refine Nat.le_of_lt_succ (Nat.lt_of_le_of_ne hq fun heq => hno ?_)
    cases heq
    exact hP
  cases r with
  | none => exact fun q hq hP => h q (hbefore q hq hP) hP
  | some p => exact ⟨⟨Nat.le_succ_of_le h.1.1, h.1.2⟩, fun q hq => h.2 ⟨hbefore q hq.1 hq.2, hq.2⟩⟩

/-- Places further on do not matter when there are none with the property. -/
theorem IsLast.mono {stop : Nat} (hle : start ≤ stop) (hP : ∀ p, P p → p ≤ start)
    (h : IsLast P start r) : IsLast P stop r := by
  cases r with
  | none => exact fun q _ hq => h q (hP q hq) hq
  | some p => exact ⟨⟨Nat.le_trans h.1.1 hle, h.1.2⟩, fun q hq => h.2 ⟨hP q hq.2, hq.2⟩⟩

theorem IsLast.iff (h : IsLast P start r) :
    (∀ p, r = some p ↔ IsGreatest {p | p ≤ start ∧ P p} p) ∧
      (r = none ↔ ∀ p, p ≤ start → ¬ P p) := by
  cases r with
  | none =>
      refine ⟨fun p => ⟨fun hp => (nomatch hp), fun hp => absurd hp.1.2 (h p hp.1.1)⟩, ?_⟩
      exact iff_of_true rfl h
  | some q =>
      refine ⟨fun p => ⟨fun hp => ?_, fun hp => ?_⟩, fun hq => (nomatch hq), fun hno => ?_⟩
      · cases hp
        exact h
      · rw [IsGreatest.unique h hp]
      · exact absurd h.1.2 (hno q h.1.1)

end Search

end Lib

end CryptoOpal

import Mathlib.Data.List.Basic

/-!
# The First Shared Element

Two parties each hold a short list of values in their own order of preference
and choose the first one that the other holds too. They need not choose the
same value: with the lists `[x, y]` and `[y, x]` each prefers another one.

They do if both lists put their shared values in one common order, such as
newest first. Only the shared values count; what one party alone holds may
stand anywhere. `NoOlder` is such an order for values that are recorded in a
history when they come up.

## Main definitions

* `firstShared`: The first element of one list that is in the other.
* `NoOlder`: One value of a history is not older than another.

## Theorems

* `firstShared_comm`: Under a common order both parties choose the same.
* `firstShared_pair_comm`: The same for two values on each side.
* `NoOlder.antisymm`, `NoOlder.append`, `NoOlder.of_new`: The order of a
  history, and what it says about a longer one.
-/

namespace CryptoOpal

namespace Lib

variable {α : Type}

/-- The first element of `mine` that is also in `theirs`. -/
def firstShared [DecidableEq α] (mine theirs : List α) : Option α :=
  mine.find? fun a => a ∈ theirs

theorem firstShared_eq_head [DecidableEq α] (mine theirs : List α) :
    firstShared mine theirs = (mine.filter fun a => a ∈ theirs).head? :=
  List.head?_filter.symm

/-- What is first in a list in the order `R` is the only element, or related
    to every other one. -/
theorem head_related {R : α → α → Prop} {l : List α} {x y : α} (hl : l.Pairwise R)
    (hx : l.head? = some x) (hy : y ∈ l) : x = y ∨ R x y := by
  cases l with
  | nil => exact absurd hy List.not_mem_nil
  | cons a l =>
      rw [List.head?_cons, Option.some.injEq] at hx
      rw [List.pairwise_cons] at hl
      rcases List.mem_cons.mp hy with rfl | hmem
      · exact Or.inl hx.symm
      · rw [← hx]
        exact Or.inr (hl.1 y hmem)

theorem firstShared_comm [DecidableEq α] {R : α → α → Prop} {mine theirs : List α}
    (hanti : ∀ x y, R x y → R y x → x = y)
    (hmine : (mine.filter fun a => a ∈ theirs).Pairwise R)
    (htheirs : (theirs.filter fun a => a ∈ mine).Pairwise R) :
    firstShared mine theirs = firstShared theirs mine := by
  -- Both filtered lists hold the same elements, the shared ones.
  have hshared : ∀ x, x ∈ (mine.filter fun a => a ∈ theirs) ↔
      x ∈ (theirs.filter fun a => a ∈ mine) := by
    intro x
    simp only [List.mem_filter, decide_eq_true_eq, and_comm]
  rw [firstShared_eq_head, firstShared_eq_head]
  cases hx : (mine.filter fun a => a ∈ theirs).head? with
  | none =>
      rw [List.head?_eq_none_iff] at hx
      symm
      rw [List.head?_eq_none_iff, List.eq_nil_iff_forall_not_mem]
      intro y hy
      rw [← hshared, hx] at hy
      exact List.not_mem_nil hy
  | some x =>
      have hxmine := List.mem_of_head? hx
      cases hy : (theirs.filter fun a => a ∈ mine).head? with
      | none =>
          rw [List.head?_eq_none_iff] at hy
          rw [hshared, hy] at hxmine
          exact absurd hxmine List.not_mem_nil
      | some y =>
          -- Each of the two first elements comes no later than the other.
          have hxy := head_related hmine hx ((hshared y).mpr (List.mem_of_head? hy))
          have hyx := head_related htheirs hy ((hshared x).mp hxmine)
          rcases hxy with rfl | hxy
          · rfl
          · rcases hyx with rfl | hyx
            · rfl
            · rw [hanti x y hxy hyx]

/-- Two values on each side: all that counts is where a shared second value
    stands to the first one. -/
theorem firstShared_pair_comm [DecidableEq α] {R : α → α → Prop} {a b c d : α}
    (hanti : ∀ x y, R x y → R y x → x = y) (hab : b ∈ [c, d] → R a b) (hcd : d ∈ [a, b] → R c d) :
    firstShared [a, b] [c, d] = firstShared [c, d] [a, b] := by
  have hpair : ∀ (p : α → Bool) (x y : α), (p y = true → R x y) → ([x, y].filter p).Pairwise R := by
    intro p x y hxy
    cases hx : p x <;> cases hy : p y <;>
      simp only [List.filter_cons, List.filter_nil, hx, hy, if_true, Bool.false_eq_true, if_false,
        List.Pairwise.nil, List.pairwise_cons, List.mem_singleton, forall_eq, List.not_mem_nil,
        false_implies, implies_true, and_true]
    exact hxy hy
  refine firstShared_comm hanti (hpair _ a b fun h => hab ?_) (hpair _ c d fun h => hcd ?_)
  · rw [decide_eq_true_eq] at h
    exact h
  · rw [decide_eq_true_eq] at h
    exact h

/-- Both values are in the history, the first no earlier than the other. -/
structure NoOlder [DecidableEq α] (hist : List α) (v u : α) : Prop where
  newer : v ∈ hist
  older : u ∈ hist
  order : hist.idxOf u ≤ hist.idxOf v

variable [DecidableEq α] {hist : List α} {u v w : α}

theorem NoOlder.refl (h : v ∈ hist) : NoOlder hist v v := ⟨h, h, Nat.le_refl _⟩

theorem NoOlder.trans (hwv : NoOlder hist w v) (hvu : NoOlder hist v u) : NoOlder hist w u :=
  ⟨hwv.newer, hvu.older, Nat.le_trans hvu.order hwv.order⟩

theorem NoOlder.antisymm (hvu : NoOlder hist v u) (huv : NoOlder hist u v) : v = u :=
  (List.idxOf_inj hvu.newer).mp (Nat.le_antisymm huv.order hvu.order)

/-- What comes up later does not change the order. -/
theorem NoOlder.append (h : NoOlder hist v u) (l : List α) : NoOlder (hist ++ l) v u where
  newer := List.mem_append_left l h.newer
  older := List.mem_append_left l h.older
  order := by
    rw [List.idxOf_append_of_mem h.newer, List.idxOf_append_of_mem h.older]
    exact h.order

/-- A new value is not older than the ones before it. -/
theorem NoOlder.of_new {l : List α} (hu : u ∈ hist) (hv : v ∈ l) (hnew : v ∉ hist) :
    NoOlder (hist ++ l) v u where
  newer := List.mem_append_right hist hv
  older := List.mem_append_left l hu
  order := by
    have hlt := List.idxOf_lt_length_of_mem hu
    rw [List.idxOf_append_of_mem hu, List.idxOf_append_of_notMem hnew]
    omega

end Lib

end CryptoOpal

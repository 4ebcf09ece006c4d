import Mathlib.Data.List.Basic

/-!
# Loops That Rewrite an Array in Place

`for (i = lo; i < lo + cnt; i++) a[i] = f(a, i)` reads the array it is
writing. When the value for cell `i` is computed from cell `i` and the cells
after it, the loop has not yet touched anything it reads, and its result is
the one a reader expects: every cell of the range holds `f` of the *original*
array. `getElem?_forLoop` is that fact.

## Main definitions

* `forLoop`: The loop.
* `LooksAhead`: The value for a cell depends on that cell and later ones only.

## Theorems

* `length_forLoop`: The loop changes no length.
* `getElem?_forLoop`: The cells of the range hold `f` of the original array.
-/

namespace CryptoOpal

namespace Lib

variable {α : Type}

/-- Assign `f a i` to cell `i`, for `cnt` cells from `lo` on, in order. -/
def forLoop (lo cnt : Nat) (f : List α → Nat → α) (a : List α) : List α :=
  (List.range' lo cnt).foldl (fun a i => a.set i (f a i)) a

/-- The value for cell `i` depends only on cells `i` and after. -/
def LooksAhead (f : List α → Nat → α) : Prop :=
  ∀ (a b : List α) (i : Nat), (∀ j, i ≤ j → a[j]? = b[j]?) → f a i = f b i

theorem forLoop_succ (lo cnt : Nat) (f : List α → Nat → α) (a : List α) :
    forLoop lo (cnt + 1) f a =
      (forLoop lo cnt f a).set (lo + cnt) (f (forLoop lo cnt f a) (lo + cnt)) := by
  simp only [forLoop, List.range'_1_concat, List.foldl_append, List.foldl_cons, List.foldl_nil]

theorem length_forLoop (lo cnt : Nat) (f : List α → Nat → α) (a : List α) :
    (forLoop lo cnt f a).length = a.length := by
  induction cnt with
  | zero => rfl
  | succ k ih => rw [forLoop_succ, List.length_set, ih]

/-- Each cell of the range ends up with `f` of the original array, and the
    other cells are left alone. -/
theorem getElem?_forLoop (lo cnt : Nat) (f : List α → Nat → α) (hf : LooksAhead f)
    (a : List α) (hlen : lo + cnt ≤ a.length) (j : Nat) :
    (forLoop lo cnt f a)[j]? = if lo ≤ j ∧ j < lo + cnt then some (f a j) else a[j]? := by
  induction cnt generalizing j with
  | zero =>
      rw [if_neg (by omega)]
      rfl
  | succ k ih =>
      -- Cell `lo + k` and the ones after it are still the original ones.
      have hval : f (forLoop lo k f a) (lo + k) = f a (lo + k) := by
        refine hf _ _ _ (fun i hi => ?_)
        rw [ih (by omega) i, if_neg (by omega)]
      rw [forLoop_succ, hval, List.getElem?_set]
      by_cases hj : lo + k = j
      · rw [if_pos hj, if_pos (by rw [length_forLoop]; omega), if_pos (by omega), ← hj]
      · rw [if_neg hj, ih (by omega) j]
        by_cases hin : lo ≤ j ∧ j < lo + k
        · rw [if_pos hin, if_pos (by omega)]
        · rw [if_neg hin, if_neg (by omega)]

end Lib

end CryptoOpal

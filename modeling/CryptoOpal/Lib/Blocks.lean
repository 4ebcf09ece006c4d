import Mathlib.Data.List.Basic

/-!
# Data in Blocks

A state that takes in data a block at a time. The data may come in pieces: what is left of a
piece after its last entire block waits for the next one. Only the data as a whole matters.

## Main definitions

* `absorb`: Take in so many blocks.
* `entire`, `remains`: The entire blocks of the data, and what is left of it.

## Theorems

* `absorb_append`: What follows the blocks is not looked at.
* `entire_append`, `remains_append`: Data that comes in two pieces.
-/

namespace CryptoOpal

namespace Lib

section Blocks

variable {σ α : Type} (f : σ → List α → σ) (b : Nat)

/-- Take in `n` blocks of the data. -/
def absorb : Nat → σ → List α → σ
  | 0, s, _ => s
  | n + 1, s, xs => absorb n (f s (xs.take b)) (xs.drop b)

/-- The state after the entire blocks of the data. -/
def entire (s : σ) (xs : List α) : σ := absorb f b (xs.length / b) s xs

/-- What is left of the data after its entire blocks. -/
def remains (xs : List α) : List α := xs.drop (b * (xs.length / b))

variable {f b}

@[simp] theorem length_remains (xs : List α) : (remains b xs).length = xs.length % b := by
  rw [remains, List.length_drop, Nat.mod_def]

theorem absorb_add (m n : Nat) (s : σ) (xs : List α) :
    absorb f b (m + n) s xs = absorb f b n (absorb f b m s xs) (xs.drop (b * m)) := by
  induction m generalizing s xs with
  | zero => rw [Nat.zero_add, absorb, Nat.mul_zero, List.drop_zero]
  | succ m ih =>
      rw [Nat.succ_add, absorb, ih, absorb, List.drop_drop, Nat.mul_succ, Nat.add_comm b]

/-- What follows the blocks is not looked at. -/
theorem absorb_append {n : Nat} {s : σ} {xs : List α} (ys : List α) (h : b * n ≤ xs.length) :
    absorb f b n s (xs ++ ys) = absorb f b n s xs := by
  induction n generalizing s xs with
  | zero => rfl
  | succ n ih =>
      rw [Nat.mul_succ] at h
      rw [absorb, absorb, List.take_append_of_le_length (by omega),
        List.drop_append_of_le_length (by omega), ih (by rw [List.length_drop]; omega)]

theorem div_append (hb : 0 < b) (xs ys : List α) :
    (xs ++ ys).length / b = xs.length / b + (remains b xs ++ ys).length / b := by
  have hxs := Nat.div_add_mod xs.length b
  rw [List.length_append, List.length_append, length_remains]
  calc (xs.length + ys.length) / b
      = (b * (xs.length / b) + (xs.length % b + ys.length)) / b := by rw [← Nat.add_assoc, hxs]
    _ = xs.length / b + (xs.length % b + ys.length) / b := by
        rw [Nat.mul_add_div hb]

/-- A second piece goes on from the state after the first and what was left of it. -/
theorem entire_append (hb : 0 < b) (s : σ) (xs ys : List α) :
    entire f b s (xs ++ ys) = entire f b (entire f b s xs) (remains b xs ++ ys) := by
  have hle : b * (xs.length / b) ≤ xs.length := Nat.mul_div_le _ _
  rw [entire, div_append hb, absorb_add, absorb_append ys hle,
    List.drop_append_of_le_length hle]
  rfl

theorem remains_append (hb : 0 < b) (xs ys : List α) :
    remains b (xs ++ ys) = remains b (remains b xs ++ ys) := by
  have hle : b * (xs.length / b) ≤ xs.length := Nat.mul_div_le _ _
  rw [remains, div_append hb, Nat.mul_add, ← List.drop_drop, List.drop_append_of_le_length hle]
  rfl

/-- A first entire block. -/
theorem entire_block (hb : 0 < b) (s : σ) {xs : List α} (ys : List α) (h : xs.length = b) :
    entire f b s (xs ++ ys) = entire f b (f s xs) ys := by
  rw [entire, List.length_append, h, Nat.add_div_left _ hb, absorb, ← h, List.take_left,
    List.drop_left, h]
  rfl

/-- Less than a block. -/
theorem entire_short (s : σ) {xs : List α} (h : xs.length < b) : entire f b s xs = s := by
  rw [entire, Nat.div_eq_of_lt h]
  rfl

theorem remains_short {xs : List α} (h : xs.length < b) : remains b xs = xs := by
  rw [remains, Nat.div_eq_of_lt h, Nat.mul_zero, List.drop_zero]

end Blocks

end Lib

end CryptoOpal

import Mathlib.Data.List.Basic

/-!
# Blocks of a Fixed Size

Elements come in parts of any size, and are asked for in blocks of one size. A block is made
of the next elements, and is filled up when there are too few.

What comes in goes out, in order and once: the blocks without what fills them up are the
elements that came in, less those that are still there. A block that was filled up has taken
all that had come.

## Main definitions

* `serve`: The blocks of a run.
* `cameBefore`: What came before a block was asked for.

## Theorems

* `serve_kept`: What comes in goes out.
-/

namespace CryptoOpal

namespace Lib

/-- More elements come, or a block is asked for. -/
inductive Serving (α : Type) where
  | come (xs : List α)
  | ask
  deriving DecidableEq

variable {α : Type}

/-- The next elements, and what fills the block up. -/
def block (n : Nat) (z : α) (waiting : List α) : List α :=
  waiting.take n ++ List.replicate (n - waiting.length) z

/-- The blocks of a run, and what is left. -/
def serve (n : Nat) (z : α) : List α → List (Serving α) → List (List α) × List α
  | waiting, [] => ([], waiting)
  | waiting, .come xs :: es => serve n z (waiting ++ xs) es
  | waiting, .ask :: es =>
    (block n z waiting :: (serve n z (waiting.drop n) es).1, (serve n z (waiting.drop n) es).2)

/-- All elements that come. -/
def came : List (Serving α) → List α
  | [] => []
  | .come xs :: es => xs ++ came es
  | .ask :: es => came es

/-- What comes before a block is asked for. -/
def cameBefore : Nat → List (Serving α) → List α
  | _, [] => []
  | k, .come xs :: es => xs ++ cameBefore k es
  | 0, .ask :: _ => []
  | k + 1, .ask :: es => cameBefore k es

variable {n : Nat} {z : α} {waiting : List α}

theorem length_block : (block n z waiting).length = n := by
  rw [block, List.length_append, List.length_take, List.length_replicate]
  omega

/-- A block and what it is made of: with less than a block all that had come is taken. -/
def Kept (n : Nat) (z : α) (had : List α) (data : List (List α)) (k : Nat) (b : List α) : Prop :=
  ∃ d, data[k]? = some d ∧ b = d ++ List.replicate (n - d.length) z ∧
    (d.length < n → (data.take (k + 1)).flatten = had)

/-- What comes in goes out, in order and once. -/
theorem serve_kept (es : List (Serving α)) : ∃ data : List (List α),
    data.length = (serve n z waiting es).1.length ∧
      data.flatten ++ (serve n z waiting es).2 = waiting ++ came es ∧
      ∀ k b, (serve n z waiting es).1[k]? = some b →
        b.length = n ∧ Kept n z (waiting ++ cameBefore k es) data k b := by
  induction es generalizing waiting with
  | nil =>
      refine ⟨[], rfl, ?_, fun k b h => ?_⟩
      · rw [serve, came, List.flatten_nil, List.nil_append, List.append_nil]
      · rw [serve, List.getElem?_nil] at h
        cases h
  | cons e es ih =>
      cases e with
      | come xs =>
          rcases @ih (waiting ++ xs) with ⟨data, hlen, hall, hkept⟩
          refine ⟨data, hlen, ?_, fun k b h => ?_⟩
          · rw [serve, came, hall, List.append_assoc]
          · rw [serve] at h
            have hb := hkept k b h
            rw [List.append_assoc] at hb
            cases k <;> exact hb
      | ask =>
          rcases @ih (waiting.drop n) with ⟨data, hlen, hall, hkept⟩
          refine ⟨waiting.take n :: data, ?_, ?_, fun k b h => ?_⟩
          · rw [serve, List.length_cons, List.length_cons, hlen]
          · rw [serve, came, List.flatten_cons, List.append_assoc, hall, ← List.append_assoc,
              List.take_append_drop]
          · rw [serve] at h
            cases k with
            | zero =>
                rw [List.getElem?_cons_zero, Option.some.injEq] at h
                rw [← h]
                refine ⟨length_block, _, rfl, ?_, fun hshort => ?_⟩
                · rw [block, List.length_take]
                  congr 2
                  omega
                · -- too few: the block takes all of them
                  rw [List.length_take] at hshort
                  rw [List.take_succ_cons, List.take_zero, List.flatten_cons, List.flatten_nil,
                    List.append_nil, cameBefore, List.append_nil,
                    List.take_of_length_le (by omega)]
            | succ k =>
                rw [List.getElem?_cons_succ] at h
                rcases hkept k b h with ⟨hb, d, hd, hfill, hshort⟩
                refine ⟨hb, d, hd, hfill, fun hlt => ?_⟩
                rw [List.take_succ_cons, List.flatten_cons, hshort hlt, cameBefore,
                  ← List.append_assoc, List.take_append_drop]

end Lib

end CryptoOpal

import Mathlib.Data.List.Basic

/-!
# Filling a Buffer Out of Order

A buffer is written one element at a time, at addresses that come in any order
and may come twice. If what is written to an address depends on the address
alone, the order does not matter, and only the set of addresses does: the
buffer becomes the function where it was written, and stays as it was where it
was not. Once every address has been written, it is the function.

## Main definitions

* `fill`: Write the values of a function at some addresses.

## Theorems

* `getElem?_fill`: What is in the buffer afterwards.
* `fill_append`: Writing in two parts.
* `fill_eq`: A buffer that was written everywhere.
-/

namespace CryptoOpal

namespace Lib

variable {α : Type}

/-- Write the value of `f` at each of these addresses. -/
def fill (f : Nat → α) (addresses : List Nat) (buffer : List α) : List α :=
  addresses.foldl (fun b a => b.set a (f a)) buffer

section

variable {f : Nat → α} {as bs : List Nat} {buffer : List α}

theorem fill_nil : fill f [] buffer = buffer := rfl

theorem fill_cons (a : Nat) : fill f (a :: as) buffer = fill f as (buffer.set a (f a)) := rfl

theorem fill_append : fill f (as ++ bs) buffer = fill f bs (fill f as buffer) :=
  List.foldl_append

theorem length_fill : (fill f as buffer).length = buffer.length := by
  induction as generalizing buffer with
  | nil => rfl
  | cons a as ih => rw [fill_cons, ih, List.length_set]

/-- An element is that of the function if it was written, and the old one if
    it was not. -/
theorem getElem?_fill {i : Nat} (hi : i < buffer.length) :
    (fill f as buffer)[i]? = if i ∈ as then some (f i) else buffer[i]? := by
  induction as generalizing buffer with
  | nil => rw [fill_nil, if_neg List.not_mem_nil]
  | cons a as ih =>
      rw [fill_cons, ih (by rw [List.length_set]; exact hi)]
      by_cases hmem : i ∈ as
      · rw [if_pos hmem, if_pos (List.mem_cons_of_mem a hmem)]
      · rw [if_neg hmem]
        by_cases ha : a = i
        · rw [ha, List.getElem?_set_self hi, if_pos List.mem_cons_self]
        · have hnot : i ∉ a :: as := by
            intro h
            rcases List.mem_cons.mp h with h | h
            · exact ha h.symm
            · exact hmem h
          rw [List.getElem?_set_ne ha, if_neg hnot]

/-- Written everywhere with what another buffer has there, it is that one. -/
theorem fill_eq {src : List α} (hlen : buffer.length = src.length)
    (hf : ∀ i < src.length, some (f i) = src[i]?) (hcover : ∀ i < src.length, i ∈ as) :
    fill f as buffer = src := by
  apply List.ext_getElem?
  intro i
  by_cases hi : i < src.length
  · rw [getElem?_fill (by omega), if_pos (hcover i hi), hf i hi]
  · rw [List.getElem?_eq_none (by rw [length_fill]; omega), List.getElem?_eq_none (by omega)]

end

end Lib

end CryptoOpal

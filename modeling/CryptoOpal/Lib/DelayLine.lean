import Mathlib.Data.List.DropRight

/-!
# Delay Lines

A delay line keeps a window of what it has seen and gives out, for every piece
that goes in, a piece of the same length that is some elements older. What it
gives out is said without positions: together with the newest elements of the
window it is what was the newest part of the window before, and then the input.
In this form the steps of a run compose.

## Main definitions

* `Delays`: What a delay line does with an input.

## Theorems

* `Delays.refl`, `Delays.trans`: Runs of a delay line.
* `Delays.of_split`: A step, by the end of the window before it and after it.
* `Delays.length_output`: As much comes out as went in.
-/

namespace CryptoOpal

namespace Lib

variable {α : Type}

/-- The last elements of a list of which enough are in its second part. -/
theorem rtake_append_of_le {n : Nat} {l₁ l₂ : List α} (h : n ≤ l₂.length) :
    (l₁ ++ l₂).rtake n = l₂.rtake n := by
  rw [List.rtake, List.rtake, List.length_append, Nat.add_sub_assoc h,
    List.drop_length_add_append]

theorem rtake_append_length {n : Nat} {l₁ l₂ : List α} (h : l₂.length = n) :
    (l₁ ++ l₂).rtake n = l₂ := by
  rw [rtake_append_of_le (Nat.le_of_eq h.symm), List.rtake, h, Nat.sub_self, List.drop_zero]

theorem rtake_rtake_append (n : Nat) (l₁ l₂ : List α) :
    (l₁.rtake n ++ l₂).rtake n = (l₁ ++ l₂).rtake n := by
  by_cases h : n ≤ l₁.length
  · have hlen : (l₁.rtake n).length = n := by
      rw [List.rtake, List.length_drop]
      omega
    conv_rhs => rw [← List.take_append_drop (l₁.length - n) l₁, List.append_assoc]
    refine (rtake_append_of_le ?_).symm
    rw [List.length_append]
    exact Nat.le_trans (Nat.le_of_eq hlen.symm) (Nat.le_add_right _ _)
  · have hall : l₁.rtake n = l₁ := by
      rw [List.rtake, Nat.sub_eq_zero_of_le (by omega), List.drop_zero]
    rw [hall]

theorem rtake_rtake {m n : Nat} {l : List α} (h : m ≤ n) : (l.rtake n).rtake m = l.rtake m := by
  rw [List.rtake, List.rtake, List.rtake, List.length_drop, List.drop_drop]
  congr 1
  omega

/-- An input moves the window on, and what comes out are the elements that `delay` newer ones are
in front of. -/
structure Delays (delay : Nat) (window input window' output : List α) : Prop where
  window_eq : window' = (window ++ input).rtake window.length
  output_eq : output ++ window'.rtake delay = window.rtake delay ++ input

namespace Delays

variable {delay : Nat} {window window' window'' input input' output output' : List α}

theorem refl (window : List α) : Delays delay window [] window [] where
  window_eq := by rw [List.append_nil, List.rtake, Nat.sub_self, List.drop_zero]
  output_eq := by rw [List.nil_append, List.append_nil]

/-- The window keeps its length. -/
theorem length_window (h : Delays delay window input window' output) :
    window'.length = window.length := by
  rw [h.window_eq, List.rtake, List.length_drop, List.length_append]
  omega

/-- One input after the other. -/
theorem trans (h : Delays delay window input window' output)
    (h' : Delays delay window' input' window'' output') :
    Delays delay window (input ++ input') window'' (output ++ output') where
  window_eq := by
    rw [h'.window_eq, h.length_window, h.window_eq, rtake_rtake_append, List.append_assoc]
  output_eq := by
    rw [List.append_assoc, h'.output_eq, ← List.append_assoc, h.output_eq, List.append_assoc]

/-- A step, by the end of the window before it and the end of the input after it. -/
theorem of_split {older tail newest : List α} (hwindow : window = older ++ tail)
    (htail : tail.length = delay) (hsplit : tail ++ input = output ++ newest)
    (hnewest : newest.length = delay)
    (hafter : window' = (window ++ input).rtake window.length) :
    Delays delay window input window' output where
  window_eq := hafter
  output_eq := by
    have hall : window ++ input = older ++ output ++ newest := by
      rw [hwindow, List.append_assoc, hsplit, List.append_assoc]
    have hle : delay ≤ window.length := by
      rw [hwindow, List.length_append, htail]
      exact Nat.le_add_left _ _
    have hlast : window'.rtake delay = newest := by
      rw [hafter, rtake_rtake hle, hall, rtake_append_length hnewest]
    rw [hlast, ← hsplit, hwindow, rtake_append_length htail]

/-- As much comes out as went in. -/
theorem length_output (h : Delays delay window input window' output) :
    output.length = input.length := by
  have hlen := congrArg List.length h.output_eq
  rw [List.length_append, List.length_append, List.rtake, List.rtake, List.length_drop,
    List.length_drop, h.length_window] at hlen
  omega

end Delays

end Lib

end CryptoOpal

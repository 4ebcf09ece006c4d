import Mathlib.Data.Set.Insert

/-!
# Sliding Replay Windows

A replay window remembers which of the most recent indices have been seen. It
holds the highest index, `top`, and `w` bits; the bit at position `w - 1` is
for `top` itself, and the bit `k` places below it for `top - k`.

What such a window is for is a statement about the set of indices marked so
far, which the window does not store. `Remembers` is the half a replay check
needs to be safe: every marked index that is still inside the window has its
bit set, and none lies above the top. `Tracks` adds the half it needs to be
useful: no other bit inside the window is set.

A window moves in three ways. It marks an index at or below the top, it
advances the top by some amount and shifts its bits along, or it drops its
bits and jumps to a top so far ahead that every old index falls out. Each has
one lemma, stated for the bits before and after, so any layout of the bits
can use them.

## Main definitions

* `place`: The position of an index's bit.
* `Remembers`: Marked indices inside the window have their bits set.
* `Tracks`: The bits inside the window are exactly the marked indices.

## Theorems

* `Remembers.mono`: A window remembers every subset of what it remembers.
* `Remembers.fresh`: An index whose bit is clear has not been marked.
* `Remembers.mark`, `Remembers.advance`, `Remembers.jump`: The three moves.
* `Tracks.mark`, `Tracks.advance`: The moves that keep the bits exact.
* `Tracks.place_iff`: Inside the window, a bit is set exactly when marked.
-/

namespace CryptoOpal

namespace Lib

/-- The position of the bit for index `a` in a window of `w` bits below `top`. -/
def place (w top a : Nat) : Nat := a + w - 1 - top

/-- The top's own bit is the last one. -/
theorem place_top {w top : Nat} (hw : 0 < w) : place w top top = w - 1 := by
  simp only [place]
  omega

/-- Every index in `acc` is at or below the top, and the ones still inside the
    window have their bits set. -/
structure Remembers (w top : Nat) (bit : Nat → Bool) (acc : Set Nat) : Prop where
  le_top : ∀ a ∈ acc, a ≤ top
  marked : ∀ a ∈ acc, top < a + w → bit (place w top a) = true

/-- The bits inside the window are exactly those of the indices in `acc`. -/
structure Tracks (w top : Nat) (bit : Nat → Bool) (acc : Set Nat) : Prop
    extends Remembers w top bit acc where
  only : ∀ a ≤ top, top < a + w → bit (place w top a) = true → a ∈ acc

section

variable {w top top' : Nat} {bit bit' : Nat → Bool} {acc : Set Nat}

theorem Remembers.mono {acc' : Set Nat} (h : Remembers w top bit acc) (hsub : acc' ⊆ acc) :
    Remembers w top bit acc' :=
  ⟨fun a ha => h.le_top a (hsub ha), fun a ha => h.marked a (hsub ha)⟩

theorem Remembers.empty : Remembers w top bit ∅ :=
  ⟨fun _ ha => ha.elim, fun _ ha => ha.elim⟩

/-- An index inside the window whose bit is clear has not been marked. -/
theorem Remembers.fresh (h : Remembers w top bit acc) {a : Nat} (hw : top < a + w)
    (hbit : bit (place w top a) = false) : a ∉ acc := by
  intro ha
  rw [h.marked a ha hw] at hbit
  exact absurd hbit (by decide)

/-- An index above the top has not been marked. -/
theorem Remembers.fresh_above (h : Remembers w top bit acc) {a : Nat} (ha : top < a) :
    a ∉ acc :=
  fun hmem => absurd (h.le_top a hmem) (Nat.not_le.mpr ha)

/-- Setting the bit of an index inside the window marks it. -/
theorem Remembers.mark (h : Remembers w top bit acc) {a : Nat} (ha : a ≤ top)
    (hbit : ∀ i < w, bit' i = (bit i || decide (i = place w top a))) :
    Remembers w top bit' (insert a acc) := by
  refine ⟨?_, ?_⟩
  · intro b hb
    rcases Set.mem_insert_iff.mp hb with rfl | hb
    · exact ha
    · exact h.le_top b hb
  · intro b hb hbw
    have hble : b ≤ top := by
      rcases Set.mem_insert_iff.mp hb with rfl | hb
      · exact ha
      · exact h.le_top b hb
    rw [hbit _ (by simp only [place]; omega)]
    rcases Set.mem_insert_iff.mp hb with rfl | hb
    · rw [decide_eq_true rfl, Bool.or_true]
    · rw [h.marked b hb hbw, Bool.true_or]

/-- An index whose bit is set already counts as marked. -/
theorem Remembers.insert_marked (h : Remembers w top bit acc) {a : Nat} (ha : a ≤ top)
    (hbit : bit (place w top a) = true) : Remembers w top bit (insert a acc) := by
  refine ⟨?_, ?_⟩
  · intro b hb
    rcases Set.mem_insert_iff.mp hb with rfl | hb
    · exact ha
    · exact h.le_top b hb
  · intro b hb hbw
    rcases Set.mem_insert_iff.mp hb with rfl | hb
    · exact hbit
    · exact h.marked b hb hbw

/-- Moving the top up by `d` and the bits along with it keeps every index that
    stays inside the window. -/
theorem Remembers.advance (h : Remembers w top bit acc) (hw : 0 < w) {d : Nat} (hd : 0 < d)
    (hbit : ∀ i < w, bit' i = (decide (i + d < w) && bit (i + d) || decide (i = w - 1))) :
    Remembers w (top + d) bit' (insert (top + d) acc) := by
  refine ⟨?_, ?_⟩
  · intro b hb
    rcases Set.mem_insert_iff.mp hb with rfl | hb
    · exact Nat.le_refl _
    · exact Nat.le_trans (h.le_top b hb) (Nat.le_add_right top d)
  · intro b hb hbw
    rcases Set.mem_insert_iff.mp hb with rfl | hb
    · rw [place_top hw, hbit _ (by omega), decide_eq_true (rfl : w - 1 = w - 1), Bool.or_true]
    · have hle := h.le_top b hb
      -- The bit of `b` was `d` places further up before the shift.
      have hplace : place w (top + d) b + d = place w top b := by simp only [place]; omega
      rw [hbit _ (by simp only [place]; omega), hplace, h.marked b hb (by omega),
        decide_eq_true (by simp only [place]; omega)]
      rfl

/-- Jumping so far ahead that every old index falls out of the window leaves
    nothing to remember but the new top. -/
theorem Remembers.jump (h : Remembers w top bit acc) (hw : 0 < w) (hjump : top + w ≤ top')
    (hbit : bit' (w - 1) = true) : Remembers w top' bit' (insert top' acc) := by
  refine ⟨?_, ?_⟩
  · intro b hb
    rcases Set.mem_insert_iff.mp hb with rfl | hb
    · exact Nat.le_refl _
    · exact Nat.le_trans (h.le_top b hb) (by omega)
  · intro b hb hbw
    rcases Set.mem_insert_iff.mp hb with rfl | hb
    · rw [place_top hw]
      exact hbit
    · have hle := h.le_top b hb
      omega

/-- Inside the window, a bit is set exactly when its index has been marked. -/
theorem Tracks.place_iff (h : Tracks w top bit acc) {a : Nat} (ha : a ≤ top)
    (hw : top < a + w) : bit (place w top a) = true ↔ a ∈ acc :=
  ⟨h.only a ha hw, fun hmem => h.marked a hmem hw⟩

theorem Tracks.empty (hbit : ∀ i < w, bit i = false) : Tracks w top bit ∅ := by
  refine ⟨Remembers.empty, ?_⟩
  intro a ha haw hset
  rw [hbit _ (by simp only [place]; omega)] at hset
  exact absurd hset (by decide)

theorem Tracks.mark (h : Tracks w top bit acc) {a : Nat} (ha : a ≤ top) (haw : top < a + w)
    (hbit : ∀ i < w, bit' i = (bit i || decide (i = place w top a))) :
    Tracks w top bit' (insert a acc) := by
  refine ⟨h.toRemembers.mark ha hbit, ?_⟩
  intro b hb hbw hset
  rw [hbit _ (by simp only [place]; omega), Bool.or_eq_true, decide_eq_true_eq] at hset
  rcases hset with hset | hset
  · exact Set.mem_insert_of_mem _ (h.only b hb hbw hset)
  · -- Two indices inside the window with the same place are equal.
    have hba : b = a := by simp only [place] at hset; omega
    rw [hba]
    exact Set.mem_insert _ _

theorem Tracks.advance (h : Tracks w top bit acc) (hw : 0 < w) {d : Nat} (hd : 0 < d)
    (hbit : ∀ i < w, bit' i = (decide (i + d < w) && bit (i + d) || decide (i = w - 1))) :
    Tracks w (top + d) bit' (insert (top + d) acc) := by
  refine ⟨h.toRemembers.advance hw hd hbit, ?_⟩
  intro b hb hbw hset
  rw [hbit _ (by simp only [place]; omega), Bool.or_eq_true, Bool.and_eq_true,
    decide_eq_true_eq, decide_eq_true_eq] at hset
  rcases hset with ⟨hin, hset⟩ | hlast
  · have hplace : place w (top + d) b + d = place w top b := by simp only [place]; omega
    rw [hplace] at hset hin
    have hle : b ≤ top := by simp only [place] at hplace hin; omega
    exact Set.mem_insert_of_mem _ (h.only b hle (by omega) hset)
  · have hbt : b = top + d := by simp only [place] at hlast; omega
    rw [hbt]
    exact Set.mem_insert _ _

end

end Lib

end CryptoOpal

import Mathlib.Data.Nat.Basic

/-!
# The Variable Duty Cycle

A loop that spreads some number of items over another number of places, with an accumulator and no
division. For each item the accumulator is raised by one number until it reaches the other, and
lowered by that once. How often it was raised is how many places the item gets.

The places that were given out and the items that got them stay in proportion, up to what is in
the accumulator. When all items have got theirs, all places have been given out.

## Main definitions

* `dutyCycle`: How often the accumulator is raised for an item.
* `Balance`: Places and items are in proportion.

## Theorems

* `balance_next`: One more item.
* `balance_le`, `balance_lt`: No more places than there are.
-/

namespace CryptoOpal

namespace Lib

/-- How often the accumulator is raised, and what is left in it; no result when the fuel does not
last. -/
def dutyCycle (step limit : Nat) : Nat → Nat → Option (Nat × Nat)
  | 0, _ => none
  | fuel + 1, acc =>
    if acc + step < limit then
      (dutyCycle step limit fuel (acc + step)).map fun next => (next.1 + 1, next.2)
    else some (1, acc + step - limit)

variable {step limit : Nat}

theorem dutyCycle_spec (hstep : 0 < step) {fuel acc : Nat} (hacc : acc < limit)
    (hfuel : limit - acc ≤ fuel) :
    ∃ times acc', dutyCycle step limit fuel acc = some (times, acc') ∧ 1 ≤ times ∧
      acc + times * step = limit + acc' ∧ acc' < step := by
  induction fuel generalizing acc with
  | zero => omega
  | succ fuel ih =>
      rw [dutyCycle]
      split
      next hmore =>
        obtain ⟨times, acc', hcycle, -, hsum, hlt⟩ := ih hmore (by omega)
        refine ⟨times + 1, acc', by rw [hcycle]; rfl, Nat.succ_le_succ (Nat.zero_le _), ?_, hlt⟩
        rw [Nat.succ_mul]
        omega
      next hdone => exact ⟨1, _, rfl, Nat.le_refl _, by omega, by omega⟩

/-- `places` were given out for `items`. -/
structure Balance (step limit items places acc : Nat) : Prop where
  sum : places * step = items * limit + acc
  small : acc < step

theorem balance_zero (hstep : 0 < step) : Balance step limit 0 0 0 :=
  ⟨by rw [Nat.zero_mul, Nat.zero_mul], hstep⟩

/-- One more item gets a place at least. -/
theorem balance_next {fuel items places acc : Nat} (h : Balance step limit items places acc)
    (hle : step ≤ limit) (hfuel : limit ≤ fuel) :
    ∃ times acc', dutyCycle step limit fuel acc = some (times, acc') ∧ 1 ≤ times ∧
      Balance step limit (items + 1) (places + times) acc' := by
  obtain ⟨times, acc', hcycle, hpos, hsum, hlt⟩ :=
    dutyCycle_spec (Nat.zero_lt_of_lt h.small) (Nat.lt_of_lt_of_le h.small hle)
      (show limit - acc ≤ fuel by omega)
  refine ⟨times, acc', hcycle, hpos, ?_, hlt⟩
  have hbefore := h.sum
  rw [Nat.add_mul, Nat.succ_mul]
  omega

theorem balance_le {items places acc : Nat} (h : Balance step limit items places acc)
    (hitems : items ≤ step) : places ≤ limit := by
  have hsum := h.sum
  have hsmall := h.small
  have hmul : items * limit ≤ step * limit := Nat.mul_le_mul_right _ hitems
  have hlt : places * step < (limit + 1) * step := by
    rw [Nat.succ_mul, Nat.mul_comm limit step]
    omega
  exact Nat.le_of_lt_succ (Nat.lt_of_mul_lt_mul_right hlt)

theorem balance_lt {items places acc : Nat} (h : Balance step limit items places acc)
    (hitems : items < step) (hle : step ≤ limit) : places < limit := by
  have hsum := h.sum
  have hsmall := h.small
  have hmul : (items + 1) * limit ≤ step * limit := Nat.mul_le_mul_right _ hitems
  have hlt : places * step < limit * step := by
    rw [Nat.succ_mul] at hmul
    rw [Nat.mul_comm limit step]
    omega
  exact Nat.lt_of_mul_lt_mul_right hlt

end Lib

end CryptoOpal

import Mathlib.Algebra.BigOperators.Group.Finset.Basic
import Mathlib.Algebra.Order.BigOperators.Group.Finset
import Mathlib.Logic.Function.Basic

/-!
# Census

Finitely many parties, each with a list of roles that follows from its state. An invariant that
speaks of the parties only by how many have each role is kept by a step of one party if it is kept
by the change of that party's roles, whatever the others are.

## Main definitions

* `census`: How many parties have a role.
* `others`: The same without one of them.

## Theorems

* `census_eq`, `census_update`: One party and the others.
* `count_add_le_census`: Two parties with a role are two.
* `census_eq_zero`: A role that nobody has.
-/

namespace CryptoOpal

namespace Lib

open Function (update)

variable {ι X R : Type*} [Fintype ι] [DecidableEq R] (roles : X → List R) (parties : ι → X)

/-- How many parties have a role. -/
def census (r : R) : Nat := ∑ t, (roles (parties t)).count r

variable {roles parties} in
theorem census_eq_zero {r : R} (h : ∀ t, r ∉ roles (parties t)) : census roles parties r = 0 :=
  Finset.sum_eq_zero fun t _ => List.count_eq_zero.mpr (h t)

variable [DecidableEq ι] {t u : ι}

/-- How many of the other parties have it. -/
def others (t : ι) (r : R) : Nat := ∑ u ∈ Finset.univ.erase t, (roles (parties u)).count r

theorem census_eq (t : ι) :
    census roles parties = fun r => others roles parties t r + (roles (parties t)).count r := by
  funext r
  exact (Finset.sum_erase_add _ _ (Finset.mem_univ t)).symm

theorem census_update (t : ι) (x : X) : census roles (update parties t x) =
    fun r => others roles parties t r + (roles x).count r := by
  rw [census_eq _ _ t]
  funext r
  rw [Function.update_self]
  refine congrArg (· + _) (Finset.sum_congr rfl fun u hu => ?_)
  rw [Function.update_of_ne (Finset.ne_of_mem_erase hu)]

theorem count_le_census (t : ι) (r : R) : (roles (parties t)).count r ≤ census roles parties r := by
  rw [census_eq roles parties t]
  exact Nat.le_add_left _ _

omit [DecidableEq ι] in
theorem count_add_le_census (hne : u ≠ t) (r : R) :
    (roles (parties u)).count r + (roles (parties t)).count r ≤ census roles parties r :=
  Finset.add_le_sum (f := fun v => (roles (parties v)).count r) (fun _ _ => Nat.zero_le _)
    (Finset.mem_univ u) (Finset.mem_univ t) hne

end Lib

end CryptoOpal

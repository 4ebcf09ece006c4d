import CryptoOpal.Lib.Octets

/-!
# Accesses to Buffers

What a function does to a received packet and to the buffers it fills, for the
question whether all of it stays inside. A read is a part of the packet. A
write is a number of octets put into a buffer of some size, from its
beginning. The accesses of a function are a list, and what a branch of it does
is one part of that list or another.

## Main definitions

* `Access`: A read of the packet, or a write to a buffer.
* `Inside`: All accesses stay inside.

## Theorems

* `inside_append`, `inside_ite`: Accesses one after the other, and of a branch.
-/

namespace CryptoOpal

namespace Lib

/-- A read of `len` octets of the packet from `off` on, or a write of `len` octets to a buffer of
    `size` octets. -/
inductive Access where
  | read (off len : Nat)
  | write (len size : Nat)
  deriving DecidableEq

/-- The access stays inside, for a packet of `n` octets. -/
def Access.Inside (n : Nat) : Access → Prop
  | read off len => off + len ≤ n
  | write len size => len ≤ size

instance (n : Nat) (a : Access) : Decidable (a.Inside n) := by
  cases a <;> unfold Access.Inside <;> infer_instance

/-- All accesses stay inside. -/
def Inside (n : Nat) (l : List Access) : Prop := ∀ a ∈ l, a.Inside n

instance (n : Nat) (l : List Access) : Decidable (Inside n l) :=
  inferInstanceAs (Decidable (∀ a ∈ l, a.Inside n))

variable {n : Nat} {l l' : List Access}

theorem inside_nil : Inside n [] := fun _ ha => absurd ha List.not_mem_nil

theorem inside_cons {a : Access} : Inside n (a :: l) ↔ a.Inside n ∧ Inside n l :=
  List.forall_mem_cons

theorem inside_append : Inside n (l ++ l') ↔ Inside n l ∧ Inside n l' := List.forall_mem_append

/-- What a branch does has to stay inside when it is taken. -/
theorem inside_ite {p : Prop} [Decidable p] :
    Inside n (if p then l else l') ↔ (p → Inside n l) ∧ (¬ p → Inside n l') := by
  by_cases hp : p
  · rw [if_pos hp]
    exact ⟨fun h => ⟨fun _ => h, fun hnot => absurd hp hnot⟩, fun h => h.1 hp⟩
  · rw [if_neg hp]
    exact ⟨fun h => ⟨fun hyes => absurd hyes hp, fun _ => h⟩, fun h => h.2 hp⟩

end Lib

end CryptoOpal

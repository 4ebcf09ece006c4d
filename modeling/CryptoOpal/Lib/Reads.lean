import CryptoOpal.Lib.Octets

/-!
# Reads of a Memory

A parser that walks through memory with pointers reads where its own data
tells it to, whether or not that belongs to it. A computation of this module
keeps a record of the places it has read, next to its result. Whether all of
them lie in some part of the memory is then a statement about the record, and
a sequence of computations reads inside of it exactly when each of them does.

The memory has an octet at every address. What is at an address that the
parser should not read is up to whoever gives the memory.

## Main definitions

* `Span`: Some octets in a row.
* `Traced`: A result and the spans that were read for it.
* `fetch`: Read some octets.
* `Traced.Within`: All reads are inside of these bounds.
* `Traced.Needs`: So many octets are enough, and no fewer.

## Theorems

* `within_bind`: A sequence of computations.
* `within_fetch`, `within_fetch_pos`: A single read.
* `getD_fetch`: What is read.
* `needs_bind`: A sequence of computations needs what the longer one does.
-/

namespace CryptoOpal

namespace Lib

/-- `len` octets from `off` on. -/
structure Span where
  off : Nat
  len : Nat
  deriving DecidableEq

/-- A result, and what was read for it. -/
structure Traced (α : Type) where
  reads : List Span
  value : α

instance : Monad Traced where
  pure a := ⟨[], a⟩
  bind x f := ⟨x.reads ++ (f x.value).reads, (f x.value).value⟩

/-- Read `len` octets from `off` on. -/
def fetch (memory : Nat → UInt8) (off len : Nat) : Traced Octets :=
  ⟨[⟨off, len⟩], (List.range len).map fun i => memory (off + i)⟩

/-- The span has no octet outside of these bounds. -/
def Span.Within (lo hi : Nat) (span : Span) : Prop :=
  span.len = 0 ∨ lo ≤ span.off ∧ span.off + span.len ≤ hi

/-- All reads are inside of these bounds. -/
def Traced.Within {α : Type} (lo hi : Nat) (x : Traced α) : Prop :=
  ∀ span ∈ x.reads, span.Within lo hi

section

variable {α β : Type} {lo hi : Nat}

theorem value_bind (x : Traced α) (f : α → Traced β) : (x >>= f).value = (f x.value).value := rfl

theorem reads_bind (x : Traced α) (f : α → Traced β) :
    (x >>= f).reads = x.reads ++ (f x.value).reads := rfl

theorem value_pure (a : α) : (pure a : Traced α).value = a := rfl

/-- A sequence of computations reads what they read. -/
theorem within_bind (x : Traced α) (f : α → Traced β) :
    (x >>= f).Within lo hi ↔ x.Within lo hi ∧ (f x.value).Within lo hi :=
  List.forall_mem_append

/-- A result that is there needs no reads. -/
theorem within_pure (a : α) : (pure a : Traced α).Within lo hi :=
  fun _ hspan => absurd hspan List.not_mem_nil

theorem within_map (f : α → β) (x : Traced α) :
    (f <$> x).Within lo hi ↔ x.Within lo hi := by
  have hmap : f <$> x = x >>= fun a => pure (f a) := rfl
  rw [hmap, within_bind]
  exact and_iff_left (within_pure _)

/-- One read. -/
theorem within_fetch (memory : Nat → UInt8) (off len : Nat) :
    (fetch memory off len).Within lo hi ↔ len = 0 ∨ lo ≤ off ∧ off + len ≤ hi := by
  simp only [Traced.Within, fetch, List.mem_singleton, forall_eq, Span.Within]

/-- One read of an octet or more. -/
theorem within_fetch_pos (memory : Nat → UInt8) {off len : Nat} (hlen : 0 < len) :
    (fetch memory off len).Within lo hi ↔ lo ≤ off ∧ off + len ≤ hi := by
  rw [within_fetch]
  exact or_iff_right (Nat.ne_of_gt hlen)

/-- What is read first. -/
theorem getD_fetch (memory : Nat → UInt8) (off : Nat) {len : Nat} (hlen : 0 < len) :
    (fetch memory off len).value.getD 0 0 = memory off := by
  simp only [fetch, List.getD_eq_getElem?_getD, List.getElem?_map, List.getElem?_range hlen,
    Option.map_some, Option.getD_some, Nat.add_zero]

/-- The reads are inside of a memory exactly when it has so many octets. -/
def Traced.Needs {α : Type} (x : Traced α) (k : Nat) : Prop := ∀ n, x.Within 0 n ↔ k ≤ n

/-- Read one octet. -/
def octetAt (memory : Nat → UInt8) (i : Nat) : Traced UInt8 := ⟨[⟨i, 1⟩], memory i⟩

theorem value_octetAt (memory : Nat → UInt8) (i : Nat) : (octetAt memory i).value = memory i := rfl

theorem needs_octetAt (memory : Nat → UInt8) (i : Nat) : (octetAt memory i).Needs (i + 1) := by
  intro n
  simp only [Traced.Within, octetAt, List.mem_singleton, forall_eq, Span.Within]
  omega

theorem Traced.Needs.of_eq {x : Traced α} {j k : Nat} (h : x.Needs j) (hjk : j = k) : x.Needs k :=
  hjk ▸ h

theorem needs_pure (a : α) : (pure a : Traced α).Needs 0 :=
  fun n => iff_of_true (within_pure a) (Nat.zero_le n)

/-- A sequence of computations needs what the longer one does. -/
theorem needs_bind {x : Traced α} {f : α → Traced β} {j k : Nat} (hx : x.Needs j)
    (hf : (f x.value).Needs k) : (x >>= f).Needs (max j k) := by
  intro n
  rw [within_bind, hx n, hf n, Nat.max_le]

end

end Lib

end CryptoOpal

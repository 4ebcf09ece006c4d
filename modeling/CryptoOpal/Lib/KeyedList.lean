import Mathlib.Data.List.Nodup
import Mathlib.Data.List.Basic

/-!
# Lists Searched by Key

A linked list of records that is searched for the first record with a given
key, in the way C programs keep small tables. Nothing in the list keeps the
keys distinct; a later record with a key that occurs earlier is simply never
found.

The three things such a program does to the list are here: update the record
it found in place (`replaceFirst`), unlink it (`eraseFirst`), and put a new
record at the head. Each has a lemma that says what a search finds
afterwards. A dictionary does the first if there is such a record, and else
adds one (`setKey`), so its keys stay distinct.

## Main definitions

* `findKey`: The first record with a key.
* `replaceFirst`: Write over the first record with the key of a new one.
* `eraseFirst`: Unlink the first record with a key.
* `setKey`: Write over the record with a key, or add one.

## Theorems

* `findKey_replaceFirst`, `findKey_cons`: What a search finds afterwards.
* `map_replaceFirst`: An update changes no key.
* `perm_eraseFirst`, `notMem_eraseFirst`: What unlinking leaves.
* `findKey_append`, `findKey_filter`: Searches of a longer list and of a part.
* `nodup_setKey`: The keys of a dictionary stay distinct.
-/

namespace CryptoOpal

namespace Lib

variable {α κ : Type} [DecidableEq κ]

/-- The first record with key `k`. -/
def findKey (key : α → κ) : List α → κ → Option α
  | [], _ => none
  | a :: l, k => if key a = k then some a else findKey key l k

/-- Write `x` over the first record with its key. -/
def replaceFirst (key : α → κ) (x : α) : List α → List α
  | [] => []
  | a :: l => if key a = key x then x :: l else a :: replaceFirst key x l

/-- Unlink the first record with key `k`. -/
def eraseFirst (key : α → κ) (k : κ) : List α → List α
  | [] => []
  | a :: l => if key a = k then l else a :: eraseFirst key k l

/-- Write `x` over the first record with its key, or add it at the end. -/
def setKey (key : α → κ) (x : α) : List α → List α
  | [] => [x]
  | a :: l => if key a = key x then x :: l else a :: setKey key x l

variable {key : α → κ} {l : List α} {x a : α} {k : κ}

theorem findKey_cons : findKey key (a :: l) k = if key a = k then some a else findKey key l k :=
  rfl

theorem key_of_findKey (h : findKey key l k = some a) : key a = k := by
  induction l with
  | nil => exact absurd h (by simp only [findKey, reduceCtorEq, not_false_eq_true])
  | cons b l ih =>
      rw [findKey_cons] at h
      by_cases hb : key b = k
      · rw [if_pos hb, Option.some.injEq] at h
        rw [← h]
        exact hb
      · rw [if_neg hb] at h
        exact ih h

theorem mem_of_findKey (h : findKey key l k = some a) : a ∈ l := by
  induction l with
  | nil => exact absurd h (by simp only [findKey, reduceCtorEq, not_false_eq_true])
  | cons b l ih =>
      rw [findKey_cons] at h
      by_cases hb : key b = k
      · rw [if_pos hb, Option.some.injEq] at h
        rw [h]
        exact List.mem_cons_self
      · rw [if_neg hb] at h
        exact List.mem_cons_of_mem _ (ih h)

/-- After an update, a search for the key finds the new record if it found one
    before, and any other search finds what it did. -/
theorem findKey_replaceFirst (k : κ) :
    findKey key (replaceFirst key x l) k =
      if key x = k then (findKey key l k).map (fun _ => x) else findKey key l k := by
  induction l with
  | nil => simp only [replaceFirst, findKey, Option.map_none, ite_self]
  | cons b l ih =>
      rw [replaceFirst]
      by_cases hb : key b = key x
      · rw [if_pos hb, findKey_cons, findKey_cons, hb]
        by_cases hx : key x = k
        · simp only [if_pos hx, Option.map_some]
        · simp only [if_neg hx]
      · rw [if_neg hb, findKey_cons, findKey_cons, ih]
        by_cases hk : key b = k
        · rw [if_pos hk, if_pos hk, if_neg (by rw [← hk]; exact fun h => hb h.symm)]
        · rw [if_neg hk, if_neg hk]

/-- An update in place changes no key. -/
theorem map_replaceFirst : (replaceFirst key x l).map key = l.map key := by
  induction l with
  | nil => rfl
  | cons b l ih =>
      rw [replaceFirst]
      by_cases hb : key b = key x
      · rw [if_pos hb, List.map_cons, List.map_cons, hb]
      · rw [if_neg hb, List.map_cons, List.map_cons, ih]

/-- A record with a new key is added. -/
theorem setKey_of_notMem (h : key x ∉ l.map key) : setKey key x l = l ++ [x] := by
  induction l with
  | nil => rfl
  | cons b l ih =>
      rw [List.map_cons, List.mem_cons, not_or] at h
      rw [setKey, if_neg fun hb => h.1 hb.symm, ih h.2, List.cons_append]

/-- A record with a key that is there already changes no key. -/
theorem map_setKey_of_mem (h : key x ∈ l.map key) : (setKey key x l).map key = l.map key := by
  induction l with
  | nil => exact absurd h List.not_mem_nil
  | cons b l ih =>
      rw [setKey]
      by_cases hb : key b = key x
      · rw [if_pos hb, List.map_cons, List.map_cons, hb]
      · rw [List.map_cons, List.mem_cons, or_iff_right fun he => hb he.symm] at h
        rw [if_neg hb, List.map_cons, List.map_cons, ih h]

theorem nodup_setKey (h : (l.map key).Nodup) : ((setKey key x l).map key).Nodup := by
  by_cases hx : key x ∈ l.map key
  · rw [map_setKey_of_mem hx]
    exact h
  · rw [setKey_of_notMem hx, List.map_append, List.map_singleton]
    exact h.append (List.nodup_singleton _) (List.disjoint_singleton.mpr hx)

theorem key_of_mem_setKey (h : k ∈ (setKey key x l).map key) : k = key x ∨ k ∈ l.map key := by
  by_cases hx : key x ∈ l.map key
  · rw [map_setKey_of_mem hx] at h
    exact Or.inr h
  · rw [setKey_of_notMem hx, List.map_append, List.mem_append, List.map_singleton,
      List.mem_singleton] at h
    exact h.symm

theorem findKey_eq_none : findKey key l k = none ↔ k ∉ l.map key := by
  induction l with
  | nil => simp only [findKey, List.map_nil, List.not_mem_nil, not_false_eq_true]
  | cons b l ih =>
      rw [findKey_cons, List.map_cons, List.mem_cons, not_or]
      by_cases hb : key b = k
      · rw [if_pos hb]
        simp only [reduceCtorEq, hb, not_true, false_and]
      · rw [if_neg hb, ih]
        exact ⟨fun h => ⟨fun he => hb he.symm, h⟩, fun h => h.2⟩

/-- An update in place that leaves what is looked at as it was. -/
theorem map_replaceFirst_of_eq {β : Type} {f : α → β} (h : findKey key l (key x) = some a)
    (hf : f x = f a) : (replaceFirst key x l).map f = l.map f := by
  induction l with
  | nil => rfl
  | cons b l ih =>
      rw [findKey_cons] at h
      rw [replaceFirst]
      by_cases hb : key b = key x
      · rw [if_pos hb, Option.some.injEq] at h
        rw [if_pos hb, List.map_cons, List.map_cons, hf, h]
      · rw [if_neg hb] at h
        rw [if_neg hb, List.map_cons, List.map_cons, ih h]

theorem findKey_map {β : Type} {f : α → β} {key' : β → κ} (hkey : ∀ a, key' (f a) = key a) :
    findKey key' (l.map f) k = (findKey key l k).map f := by
  induction l with
  | nil => rfl
  | cons b l ih =>
      rw [List.map_cons, findKey_cons, findKey_cons, hkey]
      by_cases hb : key b = k
      · rw [if_pos hb, if_pos hb, Option.map_some]
      · rw [if_neg hb, if_neg hb, ih]

/-- Unlinking a record of a table, and of its image under a map that keeps the
    keys. -/
theorem map_eraseFirst {β : Type} {f : α → β} {key' : β → κ} (hkey : ∀ a, key' (f a) = key a) :
    (eraseFirst key k l).map f = eraseFirst key' k (l.map f) := by
  induction l with
  | nil => rfl
  | cons b l ih =>
      rw [eraseFirst, List.map_cons, eraseFirst, hkey]
      by_cases hb : key b = k
      · rw [if_pos hb, if_pos hb]
      · rw [if_neg hb, if_neg hb, List.map_cons, ih]

theorem eraseFirst_sublist : (eraseFirst key k l).Sublist l := by
  induction l with
  | nil => exact List.Sublist.refl []
  | cons b l ih =>
      rw [eraseFirst]
      by_cases hb : key b = k
      · rw [if_pos hb]
        exact List.sublist_cons_self b l
      · rw [if_neg hb]
        exact ih.cons_cons b

/-- Unlinking the record that a search finds shortens the list by one. -/
theorem length_eraseFirst (h : findKey key l k = some a) :
    (eraseFirst key k l).length + 1 = l.length := by
  induction l with
  | nil => exact absurd h (by simp only [findKey, reduceCtorEq, not_false_eq_true])
  | cons b l ih =>
      rw [findKey_cons] at h
      rw [eraseFirst]
      by_cases hb : key b = k
      · rw [if_pos hb, List.length_cons]
      · rw [if_neg hb] at h
        rw [if_neg hb, List.length_cons, List.length_cons, ih h]

/-- Unlinked and put at the head, a record is where it was up to order. -/
theorem perm_eraseFirst (h : findKey key l k = some a) :
    (a :: eraseFirst key k l).Perm l := by
  induction l with
  | nil => exact absurd h (by simp only [findKey, reduceCtorEq, not_false_eq_true])
  | cons b l ih =>
      rw [findKey_cons] at h
      rw [eraseFirst]
      by_cases hb : key b = k
      · rw [if_pos hb, Option.some.injEq] at h
        rw [if_pos hb, h]
      · rw [if_neg hb] at h
        rw [if_neg hb]
        exact (List.Perm.swap b a _).trans ((ih h).cons b)

/-- With distinct keys, nothing with the key is left. -/
theorem notMem_eraseFirst (hdistinct : (l.map key).Nodup) : k ∉ (eraseFirst key k l).map key := by
  cases hfind : findKey key l k with
  | none => exact fun h => findKey_eq_none.mp hfind ((eraseFirst_sublist.map key).subset h)
  | some a =>
      have hperm := ((perm_eraseFirst hfind).map key).nodup_iff.mpr hdistinct
      rw [List.map_cons, List.nodup_cons, key_of_findKey hfind] at hperm
      exact hperm.1

/-- A search goes on in the second list where the first has no such record. -/
theorem findKey_append (l' : List α) :
    findKey key (l ++ l') k = (findKey key l k).or (findKey key l' k) := by
  induction l with
  | nil => rfl
  | cons b l ih =>
      rw [List.cons_append, findKey_cons, findKey_cons]
      by_cases hb : key b = k
      · rw [if_pos hb, if_pos hb, Option.some_or]
      · rw [if_neg hb, if_neg hb, ih]

/-- With distinct keys, a search of the records that were kept finds the
    record it found before, if that was kept. -/
theorem findKey_filter (p : α → Bool) (hdistinct : (l.map key).Nodup) :
    findKey key (l.filter p) k = (findKey key l k).filter p := by
  induction l with
  | nil => rfl
  | cons b l ih =>
      rw [List.map_cons, List.nodup_cons] at hdistinct
      rw [findKey_cons, List.filter_cons]
      by_cases hb : key b = k
      · rw [if_pos hb]
        by_cases hp : p b = true
        · rw [if_pos hp, findKey_cons, if_pos hb, Option.filter_some, if_pos hp]
        · -- The record goes, and no other has its key.
          have hnone : findKey key l k = none := findKey_eq_none.mpr (hb ▸ hdistinct.1)
          rw [if_neg hp, ih hdistinct.2, hnone, Option.filter_some, if_neg hp, Option.filter_none]
      · rw [if_neg hb, ← ih hdistinct.2]
        by_cases hp : p b = true
        · rw [if_pos hp, findKey_cons, if_neg hb]
        · rw [if_neg hp]

end Lib

end CryptoOpal

import CryptoOpal.Lib.KeyedList
import Mathlib.Logic.Relation
import Mathlib.Data.List.Perm.Basic

/-!
# Tables of Owners with a Template

A table in which every owner has a list of numbered resources. The resources
are either the owner's own, taken from a counter that only goes up, or those
of a template. The template may be replaced, and with it the owners that were
made from it.

`Change` lists what may happen to such a table. `Sound` is what it keeps:
owners are distinct, and only what belongs to the template is shared. The
point of it is `Released`: once an owner is gone, its resources are only
found with the template and with the owners made from it.

## Main definitions

* `Registry`: The table.
* `Registry.Change`: One change to it.
* `Registry.Sound`, `Registry.Released`: The invariants.

## Theorems

* `Registry.sound_change`, `Registry.released_change`: Changes keep them.
* `Registry.released_erase`: An owner that is unlinked is gone.
-/

namespace CryptoOpal

namespace Lib

/-- Owners with their resources, the template's resources, and the next unused
    number. -/
structure Registry (κ : Type) where
  entries : List (κ × List Nat)
  template : Option (List Nat)
  next : Nat

namespace Registry

variable {κ : Type} [DecidableEq κ] {r r' : Registry κ}

/-- The owners. -/
def owners (r : Registry κ) : List κ := r.entries.map Prod.fst

/-- A resource is the template's. -/
def OfTemplate (r : Registry κ) (n : Nat) : Prop := ∃ refs, r.template = some refs ∧ n ∈ refs

/-- A resource is found in the table. -/
def Supplies (r : Registry κ) (n : Nat) : Prop := (∃ e ∈ r.entries, n ∈ e.2) ∨ r.OfTemplate n

/-- New resources, below the new counter. -/
def Fresh (r : Registry κ) (refs : List Nat) (next : Nat) : Prop :=
  r.next ≤ next ∧ ∀ n ∈ refs, r.next ≤ n ∧ n < next

/-- One change to a table. -/
inductive Change (r : Registry κ) : Registry κ → Prop where
  /-- A new owner is made from the template. -/
  | cloned (k : κ) (refs : List Nat) (htemplate : r.template = some refs) (hk : k ∉ r.owners) :
      Change r ⟨(k, refs) :: r.entries, r.template, r.next⟩
  /-- A new owner gets resources of its own. -/
  | added (k : κ) (refs : List Nat) (next : Nat) (hk : k ∉ r.owners)
      (hfresh : r.Fresh refs next) : Change r ⟨(k, refs) :: r.entries, r.template, next⟩
  /-- The first template. -/
  | started (refs : List Nat) (next : Nat) (htemplate : r.template = none)
      (hfresh : r.Fresh refs next) : Change r ⟨r.entries, some refs, next⟩
  /-- An owner is unlinked. -/
  | removed (k : κ) : Change r ⟨eraseFirst Prod.fst k r.entries, r.template, r.next⟩
  /-- A new template, and the owners made from the old one with it. -/
  | converted (old refs : List Nat) (next : Nat) (moved : List κ) (rest : List (κ × List Nat))
      (htemplate : r.template = some old) (hfresh : r.Fresh refs next)
      (hperm : (moved ++ rest.map Prod.fst).Perm r.owners) (hrest : ∀ e ∈ rest, e ∈ r.entries)
      (hother : ∀ e ∈ rest, e.2.head? ≠ old.head?) :
      Change r ⟨moved.map (fun k => (k, refs)) ++ rest, some refs, next⟩

/-- What a table keeps: owners are distinct, resources are counted, and only
    those of the template are shared, all of them or none. -/
structure Sound (r : Registry κ) : Prop where
  distinct : r.owners.Nodup
  below : ∀ e ∈ r.entries, ∀ n ∈ e.2, n < r.next
  below_template : ∀ n, r.OfTemplate n → n < r.next
  shared : ∀ e ∈ r.entries, ∀ n ∈ e.2, r.OfTemplate n → r.template = some e.2
  owned : ∀ e ∈ r.entries, ∀ e' ∈ r.entries, ∀ n, n ∈ e.2 → n ∈ e'.2 →
    e.1 = e'.1 ∨ r.OfTemplate n

/-- Resources of an owner that is gone: nobody has them but the template and
    the owners made from it. -/
def Released (r : Registry κ) (refs : List Nat) : Prop :=
  ∀ n ∈ refs, n < r.next ∧ ∀ e ∈ r.entries, n ∈ e.2 → r.OfTemplate n

omit [DecidableEq κ] in
theorem sound_empty (next : Nat) : Sound (⟨[], none, next⟩ : Registry κ) where
  distinct := List.nodup_nil
  below := fun _ h => absurd h List.not_mem_nil
  below_template := fun _ ⟨_, h, _⟩ => absurd h (by simp only [reduceCtorEq, not_false_eq_true])
  shared := fun _ h => absurd h List.not_mem_nil
  owned := fun _ h => absurd h List.not_mem_nil

omit [DecidableEq κ] in
/-- An owner that does not share its first resource with the template shares
    none. -/
theorem Sound.not_ofTemplate {e : κ × List Nat} {old : List Nat} {n : Nat} (h : r.Sound)
    (he : e ∈ r.entries) (htemplate : r.template = some old) (hother : e.2.head? ≠ old.head?)
    (hn : n ∈ e.2) : ¬ r.OfTemplate n := by
  intro hof
  have hshared := h.shared e he n hn hof
  rw [htemplate, Option.some.injEq] at hshared
  exact hother (by rw [hshared])

theorem sound_change (h : r.Sound) (hchange : Change r r') : r'.Sound := by
  cases hchange with
  | cloned k refs htemplate hk =>
      have hof : ∀ n ∈ refs, r.OfTemplate n := fun n hn => ⟨refs, htemplate, hn⟩
      refine ⟨List.nodup_cons.mpr ⟨hk, h.distinct⟩, ?_, h.below_template, ?_, ?_⟩
      · intro e he n hn
        rcases List.mem_cons.mp he with rfl | he
        · exact h.below_template n (hof n hn)
        · exact h.below e he n hn
      · intro e he n hn hn'
        rcases List.mem_cons.mp he with rfl | he
        · exact htemplate
        · exact h.shared e he n hn hn'
      · intro e he e' he' n hn hn'
        rcases List.mem_cons.mp he with rfl | he
        · exact Or.inr (hof n hn)
        rcases List.mem_cons.mp he' with rfl | he'
        · exact Or.inr (hof n hn')
        · exact h.owned e he e' he' n hn hn'
  | added k refs next hk hfresh =>
      refine ⟨List.nodup_cons.mpr ⟨hk, h.distinct⟩, ?_, ?_, ?_, ?_⟩
      · intro e he n hn
        rcases List.mem_cons.mp he with rfl | he
        · exact (hfresh.2 n hn).2
        · exact Nat.lt_of_lt_of_le (h.below e he n hn) hfresh.1
      · exact fun n hn => Nat.lt_of_lt_of_le (h.below_template n hn) hfresh.1
      · intro e he n hn hn'
        rcases List.mem_cons.mp he with rfl | he
        · exact absurd (h.below_template n hn') (Nat.not_lt.mpr (hfresh.2 n hn).1)
        · exact h.shared e he n hn hn'
      · intro e he e' he' n hn hn'
        -- A new resource is nobody else's.
        rcases List.mem_cons.mp he with rfl | he
        · rcases List.mem_cons.mp he' with rfl | he'
          · exact Or.inl rfl
          · exact absurd (h.below e' he' n hn') (Nat.not_lt.mpr (hfresh.2 n hn).1)
        rcases List.mem_cons.mp he' with rfl | he'
        · exact absurd (h.below e he n hn) (Nat.not_lt.mpr (hfresh.2 n hn').1)
        · exact h.owned e he e' he' n hn hn'
  | started refs next htemplate hfresh =>
      have hnone : ∀ n, ¬ r.OfTemplate n := by
        rintro n ⟨refs', h', -⟩
        rw [htemplate] at h'
        exact absurd h' (by simp only [reduceCtorEq, not_false_eq_true])
      refine ⟨h.distinct, ?_, ?_, ?_, ?_⟩
      · exact fun e he n hn => Nat.lt_of_lt_of_le (h.below e he n hn) hfresh.1
      · rintro n ⟨refs', h', hn⟩
        rw [Option.some.injEq] at h'
        rw [← h'] at hn
        exact (hfresh.2 n hn).2
      · rintro e he n hn ⟨refs', h', hn'⟩
        rw [Option.some.injEq] at h'
        rw [← h'] at hn'
        exact absurd (h.below e he n hn) (Nat.not_lt.mpr (hfresh.2 n hn').1)
      · intro e he e' he' n hn hn'
        exact (h.owned e he e' he' n hn hn').imp_right fun hof => absurd hof (hnone n)
  | removed k =>
      have hsub : (eraseFirst Prod.fst k r.entries).Sublist r.entries := eraseFirst_sublist
      refine ⟨h.distinct.sublist (hsub.map Prod.fst), ?_, h.below_template, ?_, ?_⟩
      · exact fun e he => h.below e (hsub.subset he)
      · exact fun e he => h.shared e (hsub.subset he)
      · exact fun e he e' he' => h.owned e (hsub.subset he) e' (hsub.subset he')
  | converted old refs next moved rest htemplate hfresh hperm hrest hother =>
      have hmap : (moved.map (fun k => (k, refs)) ++ rest).map Prod.fst =
          moved ++ rest.map Prod.fst := by
        rw [List.map_append, List.map_map]
        simp only [Function.comp_def, List.map_id']
      have hcases {e : κ × List Nat} (he : e ∈ moved.map (fun k => (k, refs)) ++ rest) :
          e.2 = refs ∨ e ∈ rest := by
        rcases List.mem_append.mp he with he | he
        · rcases List.mem_map.mp he with ⟨k, -, rfl⟩
          exact Or.inl rfl
        · exact Or.inr he
      refine ⟨?_, ?_, ?_, ?_, ?_⟩
      · change (List.map Prod.fst _).Nodup
        rw [hmap]
        exact hperm.nodup_iff.mpr h.distinct
      · intro e he n hn
        rcases hcases he with heq | he
        · rw [heq] at hn
          exact (hfresh.2 n hn).2
        · exact Nat.lt_of_lt_of_le (h.below e (hrest e he) n hn) hfresh.1
      · rintro n ⟨refs', h', hn⟩
        rw [Option.some.injEq] at h'
        rw [← h'] at hn
        exact (hfresh.2 n hn).2
      · rintro e he n hn ⟨refs', h', hn'⟩
        rw [Option.some.injEq] at h'
        rcases hcases he with heq | he
        · rw [heq]
        · rw [← h'] at hn'
          exact absurd (h.below e (hrest e he) n hn) (Nat.not_lt.mpr (hfresh.2 n hn').1)
      · intro e he e' he' n hn hn'
        rcases hcases he with heq | he
        · exact Or.inr ⟨refs, rfl, heq ▸ hn⟩
        rcases hcases he' with heq' | he'
        · exact Or.inr ⟨refs, rfl, heq' ▸ hn'⟩
        · rcases h.owned e (hrest e he) e' (hrest e' he') n hn hn' with heq | hof
          · exact Or.inl heq
          · exact absurd hof (h.not_ofTemplate (hrest e he) htemplate (hother e he) hn)

theorem released_change {refs : List Nat} (h : r.Sound) (hreleased : r.Released refs)
    (hchange : Change r r') : r'.Released refs := by
  intro n hn
  rcases hreleased n hn with ⟨hlt, hof⟩
  cases hchange with
  | cloned k new htemplate hk =>
      refine ⟨hlt, fun e he hne => ?_⟩
      rcases List.mem_cons.mp he with rfl | he
      · exact ⟨new, htemplate, hne⟩
      · exact hof e he hne
  | added k new next hk hfresh =>
      refine ⟨Nat.lt_of_lt_of_le hlt hfresh.1, fun e he hne => ?_⟩
      rcases List.mem_cons.mp he with rfl | he
      · exact absurd hlt (Nat.not_lt.mpr (hfresh.2 n hne).1)
      · exact hof e he hne
  | started new next htemplate hfresh =>
      refine ⟨Nat.lt_of_lt_of_le hlt hfresh.1, fun e he hne => ?_⟩
      rcases hof e he hne with ⟨old, hold, -⟩
      rw [htemplate] at hold
      exact absurd hold (by simp only [reduceCtorEq, not_false_eq_true])
  | removed k => exact ⟨hlt, fun e he => hof e (eraseFirst_sublist.subset he)⟩
  | converted old new next moved rest htemplate hfresh hperm hrest hother =>
      refine ⟨Nat.lt_of_lt_of_le hlt hfresh.1, fun e he hne => ?_⟩
      rcases List.mem_append.mp he with he | he
      · rcases List.mem_map.mp he with ⟨k, -, rfl⟩
        exact absurd hlt (Nat.not_lt.mpr (hfresh.2 n hne).1)
      · exact absurd (hof e (hrest e he) hne)
          (h.not_ofTemplate (hrest e he) htemplate (hother e he) hne)

omit [DecidableEq κ] in
/-- What was released and is found is the template's. -/
theorem Released.ofTemplate {refs : List Nat} {n : Nat} (h : r.Released refs)
    (hsupplies : r.Supplies n) (hn : n ∈ refs) : r.OfTemplate n := by
  rcases hsupplies with ⟨e, he, hne⟩ | hof
  · exact (h n hn).2 e he hne
  · exact hof

/-- Both invariants hold after any number of changes. -/
theorem sound_changes (h : r.Sound) (hchanges : Relation.ReflTransGen Change r r') : r'.Sound := by
  induction hchanges with
  | refl => exact h
  | tail _ hchange ih => exact sound_change ih hchange

theorem released_changes {refs : List Nat} (h : r.Sound) (hreleased : r.Released refs)
    (hchanges : Relation.ReflTransGen Change r r') : r'.Released refs := by
  induction hchanges with
  | refl => exact hreleased
  | tail hbefore hchange ih => exact released_change (sound_changes h hbefore) ih hchange

/-- The resources of an owner that is unlinked are released. -/
theorem released_erase {k : κ} {e : κ × List Nat} (h : r.Sound)
    (hfind : findKey Prod.fst r.entries k = some e) :
    (⟨eraseFirst Prod.fst k r.entries, r.template, r.next⟩ : Registry κ).Released e.2 := by
  have he := mem_of_findKey hfind
  intro n hn
  refine ⟨h.below e he n hn, fun e' he' hn' => ?_⟩
  rcases h.owned e he e' (eraseFirst_sublist.subset he') n hn hn' with heq | hof
  · have hgone : k ∉ (eraseFirst Prod.fst k r.entries).map Prod.fst := notMem_eraseFirst h.distinct
    have hmem : e'.1 ∈ (eraseFirst Prod.fst k r.entries).map Prod.fst := List.mem_map_of_mem he'
    rw [← heq, key_of_findKey hfind] at hmem
    exact absurd hmem hgone
  · exact hof

end Registry

end Lib

end CryptoOpal

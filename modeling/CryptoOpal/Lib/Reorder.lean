import Mathlib.Data.List.Basic
import Mathlib.Data.List.Count
import Mathlib.Data.List.Perm.Basic
import Mathlib.Data.List.Pairwise
import Mathlib.Tactic.Common

/-!
# Reordering by a List of Properties

A list is reordered in place, by one property after the other. What has a property is moved
behind everything that was moved before it, and one index counts how much that is.

The index also counts what has the property and was moved before. From then on it is behind the
letters that were moved, and the letters in between stay where they are. The list still comes out
in order exactly when those letters are in order already.

## Main definitions

* `passLoop`, `reorder`: The moves.
* `rank`: The first property of a letter.
* `IsOrdered`: A list in the order of the first properties.
* `Settled`: When a property comes to a letter that was moved, the others are in order.

## Theorems

* `pass_eq`: What one property does.
* `foldl_pass_late`: The runs after a letter was counted twice.
* `reorder_isOrdered_iff`: When the list comes out in order.
-/

namespace CryptoOpal

namespace Lib

variable {α : Type}

/-- A letter is taken out and put in again. -/
def moveTo (l : List α) (src dst : Nat) : List α :=
  match l[src]? with
  | some x => (l.eraseIdx src).insertIdx dst x
  | none => l

/-- The loop for one property, with the places that are left. -/
def passLoop (p : α → Bool) : Nat → List α → Nat → Nat → List α × Nat
  | 0, l, _, next => (l, next)
  | left + 1, l, pos, next =>
    match l[pos]? with
    | none => (l, next)
    | some x =>
      if p x then
        passLoop p left (if next < pos then moveTo l pos next else l) (pos + 1) (next + 1)
      else passLoop p left l (pos + 1) next

def pass (s : List α × Nat) (p : α → Bool) : List α × Nat := passLoop p s.1.length s.1 0 s.2

def reorder (ps : List (α → Bool)) (l : List α) : List α := (ps.foldl pass (l, 0)).1

/-- The number of the first property, or that of all of them. -/
def rank (ps : List (α → Bool)) (x : α) : Nat := ps.findIdx fun p => p x

/-- The same letters in the order of their first properties. Letters with the same one stay in
    order. -/
def IsOrdered (ps : List (α → Bool)) (l r : List α) : Prop :=
  r.Perm l ∧ r.Pairwise (fun x y => rank ps x ≤ rank ps y) ∧
    ∀ k, r.filter (fun x => decide (rank ps x = k)) = l.filter fun x => decide (rank ps x = k)

/-- The letters without any of these properties. -/
def unmatched (ps : List (α → Bool)) (l : List α) : List α := l.filter fun x => ps.all fun p => !p x

/-- Where a property comes to a letter with an earlier one, the letters without an earlier one
    are in order already. -/
def Settled (ps : List (α → Bool)) (l : List α) : Prop :=
  ∀ before p after, ps = before ++ p :: after →
    (∃ x ∈ l, p x = true ∧ ∃ q ∈ before, q x = true) →
      (unmatched before l).Pairwise fun x y => rank (p :: after) x ≤ rank (p :: after) y

/-- What a property does when so many letters in front are left out. -/
def keep (p : α → Bool) : Nat → List α → List α
  | 0, l => l.filter p ++ l.filter fun x => !p x
  | _ + 1, [] => []
  | gap + 1, x :: l => x :: keep p (if p x then gap + 1 else gap) l

/-- The list in order. -/
def byRank : List (α → Bool) → List α → List α
  | [], l => l
  | p :: ps, l => l.filter p ++ byRank ps (l.filter fun x => !p x)

section Loop

variable {p : α → Bool}

theorem moveTo_append (x : α) (front middle rest : List α) :
    moveTo (front ++ (middle ++ x :: rest)) (front.length + middle.length) front.length =
      front ++ x :: (middle ++ rest) := by
  have hget : (front ++ (middle ++ x :: rest))[front.length + middle.length]? = some x := by
    rw [List.getElem?_append_right (Nat.le_add_right _ _), Nat.add_sub_cancel_left,
      List.getElem?_append_right (Nat.le_refl _), Nat.sub_self]
    rfl
  rw [moveTo, hget]
  show ((front ++ (middle ++ x :: rest)).eraseIdx _).insertIdx _ x = _
  rw [List.eraseIdx_append_of_length_le (Nat.le_add_right _ _), Nat.add_sub_cancel_left,
    List.eraseIdx_append_of_length_le (Nat.le_refl _), Nat.sub_self]
  clear hget
  induction front with
  | nil => rfl
  | cons y front ih =>
      rw [List.cons_append, List.length_cons, List.insertIdx_succ_cons, ih]
      rfl

/-- Behind the letters that were moved and those without the property, the loop sorts the rest. -/
theorem passLoop_behind (rest : List α) :
    ∀ front middle, (∀ x ∈ middle, p x = false) →
      passLoop p rest.length (front ++ (middle ++ rest)) (front.length + middle.length) front.length =
        (front ++ (rest.filter p ++ (middle ++ rest.filter fun x => !p x)),
          front.length + rest.countP p) := by
  induction rest with
  | nil =>
      intro front middle _
      rw [List.length_nil, passLoop, List.filter_nil, List.filter_nil, List.countP_nil]
      rfl
  | cons x rest ih =>
      intro front middle hmiddle
      have hget : (front ++ (middle ++ x :: rest))[front.length + middle.length]? = some x := by
        rw [List.getElem?_append_right (Nat.le_add_right _ _), Nat.add_sub_cancel_left,
          List.getElem?_append_right (Nat.le_refl _), Nat.sub_self]
        rfl
      rw [List.length_cons, passLoop, hget]
      show (if p x = true then _ else _) = _
      cases hp : p x with
      | true =>
          have hmoved : (if front.length < front.length + middle.length then
              moveTo (front ++ (middle ++ x :: rest)) (front.length + middle.length) front.length
              else front ++ (middle ++ x :: rest)) = (front ++ [x]) ++ (middle ++ rest) := by
            split
            · rw [moveTo_append, List.append_assoc, List.singleton_append]
            · rw [List.length_eq_zero_iff.mp (show middle.length = 0 by omega), List.append_assoc]
              rfl
          have hrun := ih (front ++ [x]) middle hmiddle
          rw [List.length_append, List.length_singleton, Nat.add_right_comm] at hrun
          rw [if_pos rfl, hmoved, hrun, List.filter_cons_of_pos hp,
            List.filter_cons_of_neg (by rw [hp]; decide), List.countP_cons_of_pos hp,
            List.append_assoc, List.singleton_append, List.cons_append, Nat.add_assoc,
            Nat.add_comm 1]
      | false =>
          have hrun := ih front (middle ++ [x]) fun y hy => by
            rcases List.mem_append.mp hy with hy | hy
            · exact hmiddle y hy
            · rwa [List.mem_singleton.mp hy]
          rw [List.length_append, List.length_singleton, List.append_assoc,
            List.singleton_append, ← Nat.add_assoc] at hrun
          rw [if_neg Bool.false_ne_true, hrun, List.filter_cons_of_neg (by rw [hp]; decide),
            List.filter_cons_of_pos (by rw [hp]; rfl), List.countP_cons_of_neg (by rw [hp]; decide),
            List.append_assoc, List.singleton_append]

/-- In front of the index nothing moves. -/
theorem passLoop_before (rest : List α) :
    ∀ front gap, passLoop p rest.length (front ++ rest) front.length (front.length + gap) =
      (front ++ keep p gap rest, front.length + gap + rest.countP p) := by
  induction rest with
  | nil =>
      intro front gap
      rw [List.length_nil, passLoop, List.countP_nil]
      cases gap <;> rfl
  | cons x rest ih =>
      intro front gap
      cases gap with
      | zero => exact passLoop_behind (x :: rest) front [] fun y hy => absurd hy List.not_mem_nil
      | succ gap =>
          have hget : (front ++ x :: rest)[front.length]? = some x := by
            rw [List.getElem?_append_right (Nat.le_refl _), Nat.sub_self]
            rfl
          have hstep : front ++ x :: rest = (front ++ [x]) ++ rest := by
            rw [List.append_assoc, List.singleton_append]
          rw [List.length_cons, passLoop, hget, keep]
          show (if p x = true then _ else _) = _
          cases hp : p x with
          | true =>
              have hrun := ih (front ++ [x]) (gap + 1)
              rw [List.length_append, List.length_singleton, ← hstep, List.append_assoc,
                List.singleton_append] at hrun
              rw [if_pos rfl, if_neg (by omega), if_pos rfl, List.countP_cons_of_pos hp,
                show front.length + (gap + 1) + 1 = front.length + 1 + (gap + 1) by omega, hrun]
              refine Prod.ext rfl ?_
              show _ + _ + _ = _ + _ + (_ + _)
              omega
          | false =>
              have hrun := ih (front ++ [x]) gap
              rw [List.length_append, List.length_singleton, ← hstep, List.append_assoc,
                List.singleton_append] at hrun
              rw [if_neg Bool.false_ne_true, if_neg Bool.false_ne_true,
                List.countP_cons_of_neg (by rw [hp]; decide),
                show front.length + (gap + 1) = front.length + 1 + gap by omega, hrun]

/-- One property. -/
theorem pass_eq (s : List α × Nat) (p : α → Bool) :
    pass s p = (keep p s.2 s.1, s.2 + s.1.countP p) := by
  have hrun := @passLoop_before α p s.1 [] s.2
  rw [List.length_nil, Nat.zero_add, List.nil_append, List.nil_append] at hrun
  exact hrun

theorem keep_append (front l : List α) (gap : Nat) :
    keep p (front.length + gap) (front ++ l) = front ++ keep p (gap + front.countP p) l := by
  induction front generalizing gap with
  | nil => rw [List.length_nil, Nat.zero_add, List.nil_append, List.countP_nil]; rfl
  | cons x front ih =>
      rw [List.length_cons, List.cons_append, Nat.add_right_comm, keep]
      cases hp : p x with
      | true =>
          rw [if_pos rfl, Nat.add_assoc, ih, List.countP_cons_of_pos hp, List.cons_append,
            Nat.add_assoc, Nat.add_comm 1]
      | false =>
          rw [if_neg Bool.false_ne_true, ih, List.countP_cons_of_neg (by rw [hp]; decide),
            List.cons_append]

theorem keep_take (gap : Nat) (l : List α) : (keep p gap l).take gap = l.take gap := by
  induction l generalizing gap with
  | nil => cases gap <;> rfl
  | cons x l ih =>
      cases gap with
      | zero => rw [List.take_zero, List.take_zero]
      | succ gap =>
          rw [keep, List.take_succ_cons, List.take_succ_cons]
          refine congrArg _ ?_
          cases p x with
          | true =>
              have h := congrArg (List.take gap) (ih (gap + 1))
              rwa [List.take_take, List.take_take, Nat.min_eq_left (Nat.le_succ _)] at h
          | false => exact ih gap

theorem foldl_pass_take (ps : List (α → Bool)) (s : List α × Nat) :
    (ps.foldl pass s).1.take s.2 = s.1.take s.2 := by
  induction ps generalizing s with
  | nil => rfl
  | cons p ps ih =>
      have h := congrArg (List.take s.2) (ih (pass s p))
      rw [pass_eq, List.take_take, List.take_take, Nat.min_eq_left (Nat.le_add_right _ _),
        keep_take] at h
      rw [List.foldl_cons, pass_eq]
      exact h

end Loop

section Front

variable {p : α → Bool} {l : List α}

/-- What has the property is in front. -/
def Front (p : α → Bool) (l : List α) : Prop := l.Pairwise fun x y => p y = true → p x = true

theorem filter_split (h : Front p l) : l = l.filter p ++ l.filter fun x => !p x := by
  induction l with
  | nil => rfl
  | cons x l ih =>
      rcases List.pairwise_cons.mp h with ⟨hx, hl⟩
      cases hp : p x with
      | true =>
          rw [List.filter_cons_of_pos hp, List.filter_cons_of_neg (by rw [hp]; decide),
            List.cons_append, ← ih hl]
      | false =>
          have hnone : ∀ y ∈ l, p y = false := fun y hy =>
            Bool.eq_false_iff.mpr fun h => absurd (hx y hy h) (by rw [hp]; decide)
          rw [List.filter_cons_of_neg (by rw [hp]; decide), List.filter_cons_of_pos (by rw [hp]; rfl),
            List.filter_eq_nil_iff.mpr fun y hy => by rw [hnone y hy]; decide,
            List.filter_eq_self.mpr fun y hy => by rw [hnone y hy]; rfl, List.nil_append]

theorem front_append {front rest : List α} (hfront : ∀ x ∈ front, p x = true)
    (hrest : ∀ x ∈ rest, p x = false) : Front p (front ++ rest) := by
  refine List.pairwise_append.mpr ⟨?_, ?_, fun x hx _ _ _ => hfront x hx⟩
  · exact List.pairwise_of_forall_mem_list fun x hx _ _ _ => hfront x hx
  · refine List.pairwise_of_forall_mem_list fun x _ y hy h => ?_
    rw [hrest y hy] at h
    exact absurd h Bool.false_ne_true

/-- A list with the letters in front is not changed. -/
theorem keep_front (h : Front p l) (gap : Nat) : keep p gap l = l := by
  induction l generalizing gap with
  | nil => cases gap <;> rfl
  | cons x l ih =>
      cases gap with
      | zero => exact (filter_split h).symm
      | succ gap => rw [keep, ih (List.pairwise_cons.mp h).2]

/-- A letter with the property comes soon. -/
theorem keep_soon (hcount : 0 < l.countP p) (gap : Nat) :
    ∃ y, p y = true ∧ y ∈ (keep p gap l).take (gap + l.countP p) := by
  induction l generalizing gap with
  | nil => exact absurd hcount (Nat.lt_irrefl 0)
  | cons x l ih =>
      cases gap with
      | zero =>
          rw [keep, Nat.zero_add, List.countP_eq_length_filter, List.take_left]
          rcases List.countP_pos_iff.mp hcount with ⟨y, hy, hpy⟩
          exact ⟨y, hpy, List.mem_filter.mpr ⟨hy, hpy⟩⟩
      | succ gap =>
          cases hp : p x with
          | true =>
              refine ⟨x, hp, ?_⟩
              rw [keep, Nat.add_right_comm, List.take_succ_cons]
              exact List.mem_cons_self
          | false =>
              rw [List.countP_cons_of_neg (by rw [hp]; decide)] at hcount ⊢
              rcases ih hcount gap with ⟨y, hpy, hy⟩
              refine ⟨y, hpy, ?_⟩
              rw [keep, hp, if_neg Bool.false_ne_true, Nat.add_right_comm, List.take_succ_cons]
              exact List.mem_cons_of_mem _ hy

/-- A letter without the property stays in front of one with it, where neither moves later. -/
theorem keep_stuck (h : ¬ Front p l) (gap : Nat) :
    ∃ x y, p x = false ∧ p y = true ∧
      [x, y].Sublist ((keep p (gap + 1) l).take (gap + 1 + l.countP p)) := by
  induction l generalizing gap with
  | nil => exact absurd List.Pairwise.nil h
  | cons z l ih =>
      rw [keep, Nat.add_right_comm, List.take_succ_cons]
      cases hp : p z with
      | true =>
          have hl : ¬ Front p l := fun hl => h (List.pairwise_cons.mpr ⟨fun _ _ _ => hp, hl⟩)
          rcases ih hl gap with ⟨x, y, hx, hy, hsub⟩
          rw [if_pos rfl, List.countP_cons_of_pos hp]
          refine ⟨x, y, hx, hy, List.Sublist.cons z ?_⟩
          rwa [show gap + (l.countP p + 1) = gap + 1 + l.countP p by omega]
      | false =>
          rw [if_neg Bool.false_ne_true, List.countP_cons_of_neg (by rw [hp]; decide)]
          have hcount : 0 < l.countP p := by
            refine Nat.pos_of_ne_zero fun hzero => h ?_
            have hnone := List.countP_eq_zero.mp hzero
            exact List.pairwise_cons.mpr ⟨fun y hy hpy => absurd hpy (hnone y hy),
              List.pairwise_of_forall_mem_list fun _ _ y hy hpy => absurd hpy (hnone y hy)⟩
          rcases keep_soon hcount gap with ⟨y, hy, hmem⟩
          exact ⟨z, y, hp, hy, List.Sublist.cons_cons z (List.singleton_sublist.mpr hmem)⟩

end Front

section Rank

variable {p : α → Bool} {ps : List (α → Bool)} {l r : List α} {x : α}

theorem rank_of_true (h : p x = true) : rank (p :: ps) x = 0 := by
  rw [rank, List.findIdx_cons, h]
  rfl

theorem rank_of_false (h : p x = false) : rank (p :: ps) x = rank ps x + 1 := by
  rw [rank, List.findIdx_cons, h]
  rfl

/-- A list is in order when the letters with the first property are in front, and the others in
    order. -/
theorem pairwise_rank_cons :
    l.Pairwise (fun x y => rank (p :: ps) x ≤ rank (p :: ps) y) ↔
      Front p l ∧ (l.filter fun x => !p x).Pairwise fun x y => rank ps x ≤ rank ps y := by
  induction l with
  | nil => exact iff_of_true List.Pairwise.nil ⟨List.Pairwise.nil, List.Pairwise.nil⟩
  | cons x l ih =>
      rw [List.pairwise_cons, ih, show Front p (x :: l) ↔ _ from List.pairwise_cons]
      cases hp : p x with
      | true =>
          rw [List.filter_cons_of_neg (by rw [hp]; decide)]
          refine ⟨fun h => ⟨⟨fun _ _ _ => rfl, h.2.1⟩, h.2.2⟩, fun h => ⟨fun y _ => ?_, h.1.2, h.2⟩⟩
          rw [rank_of_true hp]
          exact Nat.zero_le _
      | false =>
          rw [List.filter_cons_of_pos (by rw [hp]; rfl), List.pairwise_cons]
          refine ⟨fun h => ⟨⟨fun y hy hpy => ?_, h.2.1⟩, fun y hy => ?_, h.2.2⟩,
            fun h => ⟨fun y hy => ?_, h.1.2, h.2.2⟩⟩
          · have hle := h.1 y hy
            rw [rank_of_true hpy, rank_of_false hp] at hle
            exact absurd hle (Nat.not_succ_le_zero _)
          · rcases List.mem_filter.mp hy with ⟨hy, hpy⟩
            have hle := h.1 y hy
            rw [rank_of_false hp, rank_of_false ((Bool.not_eq_true' _).mp hpy)] at hle
            exact Nat.le_of_succ_le_succ hle
          · have hpy : p y = false := Bool.eq_false_iff.mpr fun hpy =>
              absurd (h.1.1 y hy hpy) Bool.false_ne_true
            rw [rank_of_false hp, rank_of_false hpy]
            exact Nat.succ_le_succ (h.2.1 y (List.mem_filter.mpr ⟨hy, by rw [hpy]; rfl⟩))

theorem byRank_perm (ps : List (α → Bool)) (l : List α) : (byRank ps l).Perm l := by
  induction ps generalizing l with
  | nil => exact List.Perm.refl l
  | cons p ps ih =>
      rw [byRank]
      exact ((ih _).append_left _).trans (List.filter_append_perm p l)

theorem front_byRank (p : α → Bool) (ps : List (α → Bool)) (l : List α) :
    Front p (byRank (p :: ps) l) := by
  rw [byRank]
  refine front_append (fun x hx => (List.mem_filter.mp hx).2) fun x hx => ?_
  have hmem := (List.mem_filter.mp ((byRank_perm ps _).mem_iff.mp hx)).2
  exact (Bool.not_eq_true' _).mp hmem

theorem rank_append {before : List (α → Bool)} (h : ∀ q ∈ before, q x = false) :
    rank (before ++ ps) x = before.length + rank ps x := by
  induction before with
  | nil => rw [List.nil_append, List.length_nil, Nat.zero_add]
  | cons q before ih =>
      rw [List.cons_append, rank_of_false (h q List.mem_cons_self),
        ih fun r hr => h r (List.mem_cons_of_mem q hr), List.length_cons, Nat.add_right_comm]

theorem mem_unmatched : x ∈ unmatched ps l ↔ x ∈ l ∧ ∀ q ∈ ps, q x = false := by
  rw [unmatched, List.mem_filter, List.all_eq_true]
  exact and_congr_right fun _ => forall₂_congr fun q _ => iff_of_eq (Bool.not_eq_true' (q x))

theorem unmatched_cons : unmatched (p :: ps) l = unmatched ps (l.filter fun x => !p x) := by
  rw [unmatched, unmatched, List.filter_filter]
  refine List.filter_congr fun x _ => ?_
  rw [List.all_cons, Bool.and_comm]

theorem filter_rank_zero :
    l.filter (fun x => decide (rank (p :: ps) x = 0)) = l.filter p := by
  refine List.filter_congr fun x _ => ?_
  cases hp : p x with
  | true => rw [rank_of_true hp, decide_eq_true rfl]
  | false => rw [rank_of_false hp, decide_eq_false (Nat.succ_ne_zero _)]

theorem filter_rank_succ (k : Nat) :
    l.filter (fun x => decide (rank (p :: ps) x = k + 1)) =
      (l.filter fun x => !p x).filter fun x => decide (rank ps x = k) := by
  rw [List.filter_filter]
  refine List.filter_congr fun x _ => ?_
  cases hp : p x with
  | true => rw [rank_of_true hp, decide_eq_false (Nat.succ_ne_zero k).symm, Bool.not_true, Bool.and_false]
  | false =>
      rw [rank_of_false hp, Bool.not_false, Bool.and_true]
      exact decide_eq_decide.mpr Nat.succ_inj

theorem filter_byRank : (byRank (p :: ps) l).filter p = l.filter p := by
  have hrest : (byRank ps (l.filter fun x => !p x)).filter p = [] := by
    refine List.filter_eq_nil_iff.mpr fun x hx hp => ?_
    have hmem := (List.mem_filter.mp ((byRank_perm ps _).mem_iff.mp hx)).2
    rw [hp] at hmem
    exact Bool.false_ne_true hmem
  rw [byRank, List.filter_append, hrest, List.append_nil, List.filter_filter]
  simp only [Bool.and_self]

theorem filter_not_byRank :
    (byRank (p :: ps) l).filter (fun x => !p x) = byRank ps (l.filter fun x => !p x) := by
  have hfront : (l.filter p).filter (fun x => !p x) = [] := by
    refine List.filter_eq_nil_iff.mpr fun x hx => ?_
    rw [(List.mem_filter.mp hx).2]
    decide
  rw [byRank, List.filter_append, hfront, List.nil_append]
  exact List.filter_eq_self.mpr fun x hx =>
    (List.mem_filter.mp ((byRank_perm ps _).mem_iff.mp hx)).2

/-- There is one list in order. -/
theorem isOrdered_iff (ps : List (α → Bool)) (l r : List α) :
    IsOrdered ps l r ↔ r = byRank ps l := by
  induction ps generalizing l r with
  | nil =>
      have hall : ∀ m : List α, m.filter (fun x => decide (rank [] x = 0)) = m :=
        fun m => List.filter_eq_self.mpr fun _ _ => rfl
      refine ⟨fun h => ?_, ?_⟩
      · have hsame := h.2.2 0
        rwa [hall, hall] at hsame
      · rintro rfl
        exact ⟨List.Perm.refl _, List.pairwise_of_forall_mem_list fun _ _ _ _ => Nat.le_refl 0,
          fun _ => rfl⟩
  | cons p ps ih =>
      refine ⟨fun h => ?_, ?_⟩
      · rcases h with ⟨hperm, hpair, hfilter⟩
        rcases pairwise_rank_cons.mp hpair with ⟨hfront, hpair⟩
        have hfirst := hfilter 0
        rw [filter_rank_zero, filter_rank_zero] at hfirst
        have hrest := (ih (l.filter fun x => !p x) (r.filter fun x => !p x)).mp
          ⟨hperm.filter _, hpair, fun k => by rw [← filter_rank_succ, ← filter_rank_succ, hfilter]⟩
        rw [byRank, ← hfirst, ← hrest]
        exact filter_split hfront
      · rintro rfl
        rcases (ih (l.filter fun x => !p x) _).mpr rfl with ⟨-, hpair, hfilter⟩
        refine ⟨byRank_perm _ _, pairwise_rank_cons.mpr ⟨front_byRank p ps l, ?_⟩, fun k => ?_⟩
        · rw [filter_not_byRank]
          exact hpair
        · cases k with
          | zero => rw [filter_rank_zero, filter_rank_zero, filter_byRank]
          | succ k => rw [filter_rank_succ, filter_rank_succ, filter_not_byRank, hfilter]

end Rank

section Runs

variable {ps : List (α → Bool)} {l : List α}

/-- Once a letter was counted twice, the list comes out in order only if the letters that are
    left are in order already. -/
theorem foldl_pass_late (ps : List (α → Bool)) :
    ∀ (p : α → Bool) (front l : List α) (gap : Nat),
      ((ps.foldl pass (front ++ keep p (gap + 1) l, front.length + (gap + 1) + l.countP p)).1 =
          front ++ byRank (p :: ps) l ↔
        l.Pairwise fun x y => rank (p :: ps) x ≤ rank (p :: ps) y) := by
  induction ps with
  | nil =>
      intro p front l gap
      rw [List.foldl_nil, List.append_cancel_left_eq, byRank, byRank, pairwise_rank_cons]
      by_cases hfront : Front p l
      · rw [keep_front hfront]
        exact iff_of_true (filter_split hfront)
          ⟨hfront, List.pairwise_of_forall_mem_list fun _ _ _ _ => Nat.le_refl 0⟩
      · refine iff_of_false (fun heq => ?_) fun h => hfront h.1
        rcases keep_stuck hfront gap with ⟨x, y, hx, hy, hsub⟩
        have hpair := (front_byRank p [] l).sublist
          (hsub.trans ((List.take_sublist _ _).trans
            (show List.Sublist _ (byRank [p] l) by rw [heq, byRank, byRank])))
        rw [List.pairwise_pair.mp hpair hy] at hx
        exact absurd hx.symm Bool.false_ne_true
  | cons q ps ih =>
      intro p front l gap
      rw [pairwise_rank_cons]
      by_cases hfront : Front p l
      · -- Nothing is moved, and the next property begins behind these letters.
        have hrun := ih q (front ++ l.filter p) (l.filter fun x => !p x)
          (gap + (front ++ l.filter p).countP q)
        have hkeep := @keep_append α q (front ++ l.filter p) (l.filter fun x => !p x) (gap + 1)
        have hnext : front.length + (gap + 1) + l.countP p =
            (front ++ l.filter p).length + (gap + 1) := by
          rw [List.length_append, List.countP_eq_length_filter]
          omega
        have hlist : front ++ l = (front ++ l.filter p) ++ l.filter fun x => !p x := by
          rw [List.append_assoc, ← filter_split hfront]
        have hfinal : front ++ byRank (p :: q :: ps) l =
            (front ++ l.filter p) ++ byRank (q :: ps) (l.filter fun x => !p x) := by
          rw [byRank, List.append_assoc]
        have hcount : (front ++ l.filter p).length + (gap + 1) +
            ((front ++ l.filter p) ++ l.filter fun x => !p x).countP q =
              (front ++ l.filter p).length + (gap + (front ++ l.filter p).countP q + 1) +
                (l.filter fun x => !p x).countP q := by
          have hsum := @List.countP_append α q (front ++ l.filter p) (l.filter fun x => !p x)
          omega
        rw [keep_front hfront, and_iff_right hfront, List.foldl_cons, pass_eq, hnext, hfinal, hlist,
          hkeep, hcount, Nat.add_right_comm]
        exact hrun
      · -- Both letters are in the part that no later property changes.
        refine iff_of_false (fun heq => ?_) fun h => hfront h.1
        rcases keep_stuck hfront gap with ⟨x, y, hx, hy, hsub⟩
        have htake := foldl_pass_take (q :: ps)
          (front ++ keep p (gap + 1) l, front.length + (gap + 1) + l.countP p)
        rw [heq, Nat.add_assoc, List.take_length_add_append, List.take_length_add_append,
          List.append_cancel_left_eq] at htake
        have hpair := (front_byRank p (q :: ps) l).sublist
          (hsub.trans ((show List.Sublist _ _ by rw [← htake]).trans (List.take_sublist _ _)))
        rw [List.pairwise_pair.mp hpair hy] at hx
        exact absurd hx.symm Bool.false_ne_true

/-- The condition, with the letters that were moved and the others. -/
def Meets : List (α → Bool) → List α → List α → Prop
  | [], _, _ => True
  | p :: ps, front, l =>
    if ∃ x ∈ front, p x = true then
      l.Pairwise fun x y => rank (p :: ps) x ≤ rank (p :: ps) y
    else Meets ps (front ++ l.filter p) (l.filter fun x => !p x)

theorem foldl_pass_iff (ps : List (α → Bool)) :
    ∀ front l : List α,
      (ps.foldl pass (front ++ l, front.length)).1 = front ++ byRank ps l ↔ Meets ps front l := by
  induction ps with
  | nil => exact fun front l => iff_of_true rfl trivial
  | cons p ps ih =>
      intro front l
      have hkeep := @keep_append α p front l 0
      rw [Nat.add_zero, Nat.zero_add] at hkeep
      rw [List.foldl_cons, pass_eq, hkeep, List.countP_append, ← Nat.add_assoc, Meets]
      split
      next hagain =>
        have hpos : 0 < front.countP p := List.countP_pos_iff.mpr hagain
        have hlate := foldl_pass_late ps p front l (front.countP p - 1)
        rwa [Nat.sub_add_cancel hpos] at hlate
      next hfirst =>
        have hzero : front.countP p = 0 :=
          List.countP_eq_zero.mpr fun x hx hp => hfirst ⟨x, hx, hp⟩
        have hrun := ih (front ++ l.filter p) (l.filter fun x => !p x)
        rw [List.length_append, ← List.countP_eq_length_filter, List.append_assoc,
          List.append_assoc] at hrun
        rw [hzero, Nat.add_zero, keep, byRank]
        exact hrun

/-- What the first property moved is what has an earlier one. -/
theorem overlap_iff {p q : α → Bool} {before : List (α → Bool)} {front l : List α} :
    ((∃ x ∈ front ++ l.filter p, q x = true) ∨
        ∃ x ∈ l.filter fun x => !p x, q x = true ∧ ∃ r ∈ before, r x = true) ↔
      (∃ x ∈ front, q x = true) ∨ ∃ x ∈ l, q x = true ∧ ∃ r ∈ p :: before, r x = true := by
  constructor
  · rintro (⟨x, hx, hq⟩ | ⟨x, hx, hq, r, hr, hrx⟩)
    · rcases List.mem_append.mp hx with hx | hx
      · exact .inl ⟨x, hx, hq⟩
      · rcases List.mem_filter.mp hx with ⟨hx, hp⟩
        exact .inr ⟨x, hx, hq, p, List.mem_cons_self, hp⟩
    · exact .inr ⟨x, (List.mem_filter.mp hx).1, hq, r, List.mem_cons_of_mem p hr, hrx⟩
  · rintro (⟨x, hx, hq⟩ | ⟨x, hx, hq, r, hr, hrx⟩)
    · exact .inl ⟨x, List.mem_append_left _ hx, hq⟩
    · cases hp : p x with
      | true => exact .inl ⟨x, List.mem_append_right _ (List.mem_filter.mpr ⟨hx, hp⟩), hq⟩
      | false =>
          rcases List.mem_cons.mp hr with rfl | hr
          · rw [hp] at hrx
            exact absurd hrx Bool.false_ne_true
          · exact .inr ⟨x, List.mem_filter.mpr ⟨hx, by rw [hp]; rfl⟩, hq, r, hr, hrx⟩

/-- The condition does not depend on how far the run is. -/
theorem meets_iff (ps : List (α → Bool)) :
    ∀ front l : List α, Meets ps front l ↔
      ∀ before p after, ps = before ++ p :: after →
        ((∃ x ∈ front, p x = true) ∨ ∃ x ∈ l, p x = true ∧ ∃ q ∈ before, q x = true) →
          (unmatched before l).Pairwise fun x y => rank (p :: after) x ≤ rank (p :: after) y := by
  induction ps with
  | nil =>
      exact fun front l => iff_of_true trivial fun before p after h =>
        absurd h.symm (List.append_ne_nil_of_right_ne_nil _ (List.cons_ne_nil _ _))
  | cons p ps ih =>
      intro front l
      have hnone : unmatched [] l = l := List.filter_eq_self.mpr fun _ _ => rfl
      rw [Meets]
      split
      next hagain =>
        refine ⟨fun hl before q after h _ => ?_, fun h => ?_⟩
        · rw [h] at hl
          refine List.Pairwise.imp_of_mem (fun hx hy hle => ?_) (hl.filter _)
          rwa [rank_append (mem_unmatched.mp hx).2, rank_append (mem_unmatched.mp hy).2,
            Nat.add_le_add_iff_left] at hle
        · have hfirst := h [] p ps rfl (.inl hagain)
          rwa [hnone] at hfirst
      next hfirst =>
        rw [ih]
        refine ⟨fun h before q after hsplit hover => ?_, fun h before q after hsplit hover => ?_⟩
        · cases before with
          | nil =>
              cases hsplit
              rcases hover with hfront | ⟨x, -, -, r, hr, -⟩
              · exact absurd hfront hfirst
              · exact absurd hr List.not_mem_nil
          | cons b before =>
              cases hsplit
              rw [unmatched_cons]
              exact h before q after rfl (overlap_iff.mpr hover)
        · have hlater := h (p :: before) q after (by rw [hsplit]; rfl) (overlap_iff.mp hover)
          rwa [unmatched_cons] at hlater

/-- The list comes out in order exactly when no property comes to a letter with an earlier one
    before the others are in order. -/
theorem reorder_isOrdered_iff (ps : List (α → Bool)) (l : List α) :
    IsOrdered ps l (reorder ps l) ↔ Settled ps l := by
  have hrun := foldl_pass_iff ps [] l
  rw [List.nil_append, List.nil_append, List.length_nil] at hrun
  rw [isOrdered_iff, reorder, hrun, meets_iff]
  refine forall_congr' fun before => forall_congr' fun p => forall_congr' fun after =>
    imp_congr_right fun _ => imp_congr_left (or_iff_right ?_)
  rintro ⟨x, hx, -⟩
  exact absurd hx List.not_mem_nil

end Runs

end Lib

end CryptoOpal

import CryptoOpal.Text.Find

/-!
# Wildcards

A pattern in which each star stands for any text, and the matcher that looks for the pieces
between the stars one by one. Letters match without regard to capitals.

The matcher takes the first place for each piece, and this is right for all pieces but the last
one, which has to be found at the end of the text. Where the last piece also occurs before the
end, the matcher finds it there and gives up. This happens when the pattern matches a part of
the text from its start on as well.

## Main definitions

* `findPlace`: The first place of a word.
* `tokenise`, `wildcardLoop`, `wildcardMatch`: The matcher.
* `Wild`: What a pattern means.
* `Spread`: Pieces with a star in front of each.
* `Greedy`: The pattern ends with a star, or matches no part.

## Theorems

* `find_eq_findPlace`: The search of a string finds the first place.
* `spread_first`: The first place is as good as any, if there are more pieces.
* `wild_tokenise`: The pieces of a pattern.
* `wildcardMatch_iff`: What the matcher finds.
-/

namespace CryptoOpal

namespace Text

open Lib (Octets)

/-- Two texts that differ in capitals only. -/
def Alike (s t : Octets) : Prop := s.map toUpper = t.map toUpper

instance (s t : Octets) : Decidable (Alike s t) :=
  inferInstanceAs (Decidable (s.map toUpper = t.map toUpper))

/-- The first place of a word in a text. -/
def place (w : Octets) : Octets → Option Nat
  | [] => if Alike w [] then some 0 else none
  | c :: t =>
    if Alike ((c :: t).take w.length) w then some 0 else (place w t).map (· + 1)

/-- The first place from an offset on. -/
def findPlace (s w : Octets) (offset : Nat) : Option Nat :=
  if s.length < offset then none else (place w (s.drop offset)).map (offset + ·)

/-- `Tokenise` at the stars. -/
def pieces : Octets → List Octets
  | [] => [[]]
  | c :: s =>
    if c = 42 then [] :: pieces s
    else
      match pieces s with
      | [] => [[c]]
      | w :: ws => (c :: w) :: ws

def tokenise (s : Octets) : List Octets := if s = [] then [] else pieces s

/-- The loop of `WildcardMatch`. -/
def wildcardLoop (str : Octets) : Bool → List Octets → Nat → Bool
  | _, [], _ => true
  | first, w :: ws, last =>
    match (if w = [] then some last else findPlace str w last) with
    | none => false
    | some next =>
      if first ∧ next ≠ 0 ∧ w ≠ [] then false
      else if ws = [] ∧ w ≠ [] ∧ next + w.length ≠ str.length then false
      else wildcardLoop str false ws (next + w.length)

/-- `WildcardMatch`. -/
def wildcardMatch (str : Octets) (wildcards : List Octets) : Bool :=
  match wildcards with
  | [w] => decide (Alike str w)
  | _ => wildcardLoop str true wildcards 0

/-- What a pattern means: a star stands for any text, and any other letter for itself. -/
inductive Wild : Octets → Octets → Prop
  | nil : Wild [] []
  | star {p s : Octets} (x : Octets) : Wild p s → Wild (42 :: p) (x ++ s)
  | letter {p s : Octets} {c d : UInt8} : c ≠ 42 → toUpper c = toUpper d → Wild p s → Wild (c :: p) (d :: s)

/-- The pieces come in order, with anything in front of each and nothing behind the last. -/
def Spread : List Octets → Octets → Prop
  | [], t => t = []
  | w :: ws, t => ∃ x v y, t = x ++ (v ++ y) ∧ Alike v w ∧ Spread ws y

/-- The pattern ends with a star, or it matches no shorter part at the start of the text. -/
def Greedy (pattern name : Octets) : Prop :=
  pattern.getLast? = some 42 ∨ ∀ part, part <+: name → part ≠ name → ¬ Wild pattern part

section Places

variable {w t part x v y : Octets} {ws : List Octets} {n : Nat}

/-- The word is at this place. -/
def At (w t : Octets) (n : Nat) : Prop :=
  n + w.length ≤ t.length ∧ Alike (Lib.window t n w.length) w

theorem alike_length {s t : Octets} (h : Alike s t) : s.length = t.length := by
  have hlen := congrArg List.length h
  rwa [List.length_map, List.length_map] at hlen

theorem at_length (hv : Alike v w) : At w (x ++ (v ++ y)) x.length := by
  have hlen := alike_length hv
  refine ⟨?_, ?_⟩
  · rw [List.length_append, List.length_append]
    omega
  · rw [Lib.window, List.drop_left, ← hlen, List.take_left]
    exact hv

theorem at_split (h : At w t n) :
    t = t.take n ++ (Lib.window t n w.length ++ t.drop (n + w.length)) := by
  rw [Lib.window, ← List.drop_drop, List.take_append_drop, List.take_append_drop]

theorem at_zero : At w t 0 ↔ Alike (t.take w.length) w := by
  rw [At, Lib.window, List.drop_zero, Nat.zero_add]
  refine ⟨fun h => h.2, fun h => ⟨?_, h⟩⟩
  have hlen := alike_length h
  rw [List.length_take] at hlen
  omega

theorem at_drop (k : Nat) (hk : k ≤ t.length) : At w t (k + n) ↔ At w (t.drop k) n := by
  rw [At, At, Lib.window, Lib.window, List.drop_drop, List.length_drop]
  refine and_congr_left fun _ => ?_
  omega

/-- A word in a part of a text is in the text, and the other way round when the part is long
    enough. -/
theorem at_part (hpart : part <+: t) (hn : n + w.length ≤ part.length) : At w part n ↔ At w t n := by
  rcases hpart with ⟨behind, rfl⟩
  have hwindow : Lib.window (part ++ behind) n w.length = Lib.window part n w.length := by
    rw [Lib.window, Lib.window, List.drop_append_of_le_length (by omega),
      List.take_append_of_le_length (by rw [List.length_drop]; omega)]
  rw [At, At, hwindow, List.length_append]
  refine and_congr_left fun _ => iff_of_true hn (Nat.le_trans hn (Nat.le_add_right _ _))

theorem place_isFirst (w t : Octets) : Lib.IsFirst (At w t) 0 (place w t) := by
  induction t with
  | nil =>
      rw [place]
      split
      next h => exact .here (at_zero.mpr (by rw [List.take_nil]; exact h.symm))
      next h =>
        intro m _ hm
        have hlen : w = [] := by
          have hle := hm.1
          rw [List.length_nil] at hle
          exact List.length_eq_zero_iff.mp (by omega)
        exact h (by rw [hlen]; rfl)
  | cons c t ih =>
      rw [place]
      split
      next h => exact .here (at_zero.mpr h)
      next h =>
        refine .next (fun hat => h (at_zero.mp hat)) ?_
        have hshift := @Lib.IsFirst.shift (At w t) 1 _ (At w (c :: t)) (fun m => at_drop 1 (by
          rw [List.length_cons]; omega)) ih
        rwa [show (fun m => 1 + m) = fun m => m + 1 from funext fun m => Nat.add_comm 1 m] at hshift

theorem findPlace_isFirst (s w : Octets) (offset : Nat) :
    Lib.IsFirst (At w s) offset (findPlace s w offset) := by
  rw [findPlace]
  split
  next h =>
    intro m hm hat
    have hle := hat.1
    omega
  next h => exact (place_isFirst w (s.drop offset)).shift fun m => at_drop offset (Nat.le_of_not_lt h)

/-- The search of a caseless string is the search for the first place. -/
theorem find_eq_findPlace (q : Query) (hq : q.casing = .caseless) (offset : Nat)
    (hp : q.pattern.octets ≠ []) :
    q.find offset = some (findPlace q.text.octets q.pattern.octets offset) := by
  rcases Query.find_isFirst offset hp with ⟨r, hr, hfirst⟩
  have hsame : q.Occurs = At q.pattern.octets q.text.octets := by
    funext m
    rw [Query.Occurs, At, Alike, hq]
    rfl
  rw [hsame] at hfirst
  rw [hr, hfirst.unique (findPlace_isFirst _ _ offset)]

theorem place_le (hplace : place w t = some n) (m : Nat) (hm : At w t m) : n ≤ m := by
  have hfirst := place_isFirst w t
  rw [hplace] at hfirst
  exact hfirst.2 ⟨Nat.zero_le m, hm⟩

theorem place_at (hplace : place w t = some n) : At w t n := by
  have hfirst := place_isFirst w t
  rw [hplace] at hfirst
  exact hfirst.1.2

theorem place_part (hpart : part <+: t) (hplace : place w t = some n)
    (hn : n + w.length ≤ part.length) : place w part = some n := by
  have hsome : Lib.IsFirst (At w part) 0 (some n) :=
    ⟨⟨Nat.zero_le n, (at_part hpart hn).mpr (place_at hplace)⟩,
      fun m hm => place_le hplace m ((at_part hpart hm.2.1).mp hm.2)⟩
  exact (place_isFirst w part).unique hsome

/-- There may be more in front of pieces. -/
theorem spread_append (hws : ws ≠ []) (z : Octets) (h : Spread ws t) : Spread ws (z ++ t) := by
  cases ws with
  | nil => exact absurd rfl hws
  | cons w ws =>
      rcases h with ⟨x, v, y, rfl, hv, hy⟩
      exact ⟨z ++ x, v, y, (List.append_assoc _ _ _).symm, hv, hy⟩

/-- The first place for a piece is as good as any, if there are more pieces. -/
theorem spread_first (hws : ws ≠ []) (hplace : place w t = some n) :
    Spread (w :: ws) t ↔ Spread ws (t.drop (n + w.length)) := by
  constructor
  · rintro ⟨x, v, y, rfl, hv, hy⟩
    -- Whatever is taken for the piece, the first place leaves as much behind it.
    have hle := place_le hplace x.length (at_length hv)
    have hdrop : (x ++ (v ++ y)).drop (n + w.length) =
        ((x ++ v).drop (n + w.length)) ++ y := by
      rw [← List.append_assoc, List.drop_append_of_le_length]
      rw [List.length_append, alike_length hv]
      omega
    rw [hdrop]
    exact spread_append hws _ hy
  · exact fun h => ⟨_, _, _, at_split (place_at hplace), (place_at hplace).2, h⟩

theorem place_isSome (h : Spread (w :: ws) t) : ∃ n, place w t = some n := by
  rcases h with ⟨x, v, y, rfl, hv, -⟩
  cases hplace : place w (x ++ (v ++ y)) with
  | some n => exact ⟨n, rfl⟩
  | none =>
      have hfirst := place_isFirst w (x ++ (v ++ y))
      rw [hplace] at hfirst
      exact absurd (at_length hv) (hfirst _ (Nat.zero_le _))

end Places

section Matching

variable {w t : Octets} {ws : List Octets} {n : Nat}

/-- The pieces end with a star, or spread over no shorter part at the start of the text. -/
def Tight (ws : List Octets) (t : Octets) : Prop :=
  ws.getLast? = some [] ∨ ∀ part, part <+: t → part ≠ t → ¬ Spread ws part

theorem length_lt_of_part {part : Octets} (hpart : part <+: t) (hne : part ≠ t) :
    part.length < t.length :=
  Nat.lt_of_le_of_ne hpart.length_le fun h => hne (hpart.eq_of_length h)

/-- The shorter parts of a text that are long enough are those of the rest of it. -/
theorem parts_behind {k : Nat} (hk : k ≤ t.length) (P : Octets → Prop) :
    (∀ part, part <+: t → part ≠ t → ¬ (k ≤ part.length ∧ P (part.drop k))) ↔
      ∀ part, part <+: t.drop k → part ≠ t.drop k → ¬ P part := by
  have hfar : (t.take k).length = k := by rw [List.length_take, Nat.min_eq_left hk]
  refine ⟨fun h part hpart hne hP => ?_, fun h part hpart hne hP => ?_⟩
  · rcases hpart with ⟨behind, hbehind⟩
    have hback : (t.take k ++ part).drop k = part := List.drop_left' hfar
    refine h (t.take k ++ part) ⟨behind, ?_⟩ (fun heq => hne ?_) ⟨?_, by rwa [hback]⟩
    · rw [List.append_assoc, hbehind, List.take_append_drop]
    · have hdrop := congrArg (List.drop k) heq
      rwa [hback] at hdrop
    · rw [List.length_append, hfar]
      exact Nat.le_add_right _ _
  · rcases hpart with ⟨behind, rfl⟩
    refine h _ ⟨behind, (List.drop_append_of_le_length hP.1).symm⟩ (fun heq => hne ?_) hP.2
    rw [List.drop_append_of_le_length hP.1] at heq
    rw [List.self_eq_append_right.mp heq, List.append_nil]

/-- The pieces spread over a part as they do over the text, behind the same place. -/
theorem spread_part {part : Octets} (hws : ws ≠ []) (hpart : part <+: t)
    (hplace : place w t = some n) :
    Spread (w :: ws) part ↔ n + w.length ≤ part.length ∧ Spread ws (part.drop (n + w.length)) := by
  refine ⟨fun h => ?_, fun h => (spread_first hws (place_part hpart hplace h.1)).mpr h.2⟩
  -- The place in the part is one in the text, and the first there is not behind it.
  rcases place_isSome h with ⟨m, hm⟩
  have hat := place_at hm
  have hle := place_le hplace m ((at_part hpart hat.1).mp hat)
  have hin : n + w.length ≤ part.length := by
    have := hat.1
    omega
  exact ⟨hin, (spread_first hws (place_part hpart hplace hin)).mp h⟩

theorem tight_first (hws : ws ≠ []) (hplace : place w t = some n) :
    Tight (w :: ws) t ↔ Tight ws (t.drop (n + w.length)) := by
  have hlast : (w :: ws).getLast? = ws.getLast? := by
    cases ws with
    | nil => exact absurd rfl hws
    | cons _ _ => exact List.getLast?_cons_cons
  rw [Tight, Tight, hlast, ← parts_behind (place_at hplace).1 (Spread ws)]
  exact or_congr Iff.rfl (forall_congr' fun part => imp_congr_right fun hpart =>
    imp_congr_right fun _ => not_congr (spread_part hws hpart hplace))

/-- The last piece is found at its first place, which has to be the end. -/
theorem tight_last (hw : w ≠ []) (hplace : place w t = some n) :
    Spread [w] t ∧ Tight [w] t ↔ n + w.length = t.length := by
  have hat := place_at hplace
  constructor
  · rintro ⟨-, hend | hparts⟩
    · exact absurd (Option.some.inj hend) hw
    · refine Decidable.byContradiction fun hne => hparts (t.take (n + w.length)) (List.take_prefix _ _)
        (fun heq => hne ?_) ?_
      · have hlen := congrArg List.length heq
        rw [List.length_take, Nat.min_eq_left hat.1] at hlen
        exact hlen
      · refine ⟨t.take n, Lib.window t n w.length, [], ?_, hat.2, rfl⟩
        rw [List.append_nil, Lib.window, ← List.take_add]
  · intro hend
    refine ⟨⟨_, _, _, at_split hat, hat.2, List.drop_eq_nil_of_le (Nat.le_of_eq hend.symm)⟩,
      .inr fun part hpart hne hspread => ?_⟩
    rcases hspread with ⟨x, v, y, rfl, hv, hy⟩
    have hinside := at_length (x := x) (y := y) hv
    have hle := place_le hplace x.length ((at_part hpart hinside.1).mp hinside)
    have hlt := length_lt_of_part hpart hne
    have := hinside.1
    omega

theorem wildcardLoop_iff (str : Octets) (ws : List Octets) :
    ∀ last, ws ≠ [] → last ≤ str.length →
      (wildcardLoop str false ws last = true ↔
        Spread ws (str.drop last) ∧ Tight ws (str.drop last)) := by
  induction ws with
  | nil => exact fun last h => absurd rfl h
  | cons w ws ih =>
      intro last _ hlast
      have hfind : (if w = [] then some last else findPlace str w last) =
          (place w (str.drop last)).map (last + ·) := by
        rw [findPlace, if_neg (Nat.not_lt_of_le hlast)]
        split
        next hw =>
          have hzero := place_isFirst w (str.drop last)
          rw [hzero.unique (.here (at_zero.mpr (by rw [hw]; rfl)))]
          rfl
        next => rfl
      rw [wildcardLoop, hfind]
      cases hplace : place w (str.drop last) with
      | none =>
          refine iff_of_false Bool.false_ne_true fun h => ?_
          rcases place_isSome h.1 with ⟨n, hn⟩
          rw [hn] at hplace
          exact nomatch hplace
      | some n =>
          have hin := (place_at hplace).1
          rw [List.length_drop] at hin
          simp only [Option.map_some, Bool.false_eq_true, false_and, if_false]
          cases ws with
          | nil =>
              by_cases hw : w = []
              · rw [if_neg fun h => h.2.1 hw, wildcardLoop]
                refine iff_of_true rfl ⟨⟨str.drop last, [], [], ?_, by rw [hw]; rfl, rfl⟩, .inl ?_⟩
                · rw [List.append_nil, List.append_nil]
                · rw [hw]
                  rfl
              · rw [tight_last hw hplace, List.length_drop, wildcardLoop]
                split
                next h => exact iff_of_false Bool.false_ne_true (by have := h.2.2; omega)
                next h =>
                  refine iff_of_true rfl (Decidable.byContradiction fun hne => h ⟨rfl, hw, ?_⟩)
                  omega
          | cons w' ws =>
              have hmore : w' :: ws ≠ [] := List.cons_ne_nil _ _
              rw [if_neg fun h => hmore h.1, ih _ hmore (by omega), spread_first hmore hplace,
                tight_first hmore hplace, List.drop_drop, Nat.add_assoc]

end Matching

section Patterns

/-- A pattern is its pieces, the first of which is at the start. -/
theorem wild_pieces (pattern : Octets) :
    ∃ w ws, pieces pattern = w :: ws ∧
      ∀ name, Wild pattern name ↔ At w name 0 ∧ Spread ws (name.drop w.length) := by
  induction pattern with
  | nil =>
      refine ⟨[], [], rfl, fun name => ⟨fun h => ?_, fun h => ?_⟩⟩
      · cases h
        exact ⟨at_zero.mpr rfl, rfl⟩
      · rw [show name = [] from h.2]
        exact .nil
  | cons c p ih =>
      rcases ih with ⟨w, ws, hp, hwild⟩
      by_cases hc : c = 42
      · refine ⟨[], w :: ws, by rw [pieces, if_pos hc, hp], fun name => ⟨fun h => ?_, fun h => ?_⟩⟩
        · cases h with
          | star x h =>
              rcases (hwild _).mp h with ⟨hat, hspread⟩
              exact ⟨at_zero.mpr rfl, x, _, _, by rw [List.take_append_drop]; rfl, at_zero.mp hat, hspread⟩
          | letter hne _ _ => exact absurd hc hne
        · rcases h.2 with ⟨x, v, y, hname, hv, hy⟩
          have hhead := at_length (x := []) (y := y) hv
          rw [show name = x ++ (v ++ y) from hname, hc]
          refine .star x ((hwild _).mpr ⟨hhead, ?_⟩)
          rwa [← alike_length hv, List.drop_left]
      · refine ⟨c :: w, ws, by rw [pieces, if_neg hc, hp], fun name => ⟨fun h => ?_, fun h => ?_⟩⟩
        · cases h with
          | star x h => exact absurd rfl hc
          | letter hne hcd h =>
              rcases (hwild _).mp h with ⟨hat, hspread⟩
              refine ⟨at_zero.mpr ?_, hspread⟩
              have hrest := at_zero.mp hat
              rw [Alike] at hrest ⊢
              rw [List.length_cons, List.take_succ_cons, List.map_cons, List.map_cons, hcd, hrest]
        · rcases h with ⟨hat, hspread⟩
          have halike := at_zero.mp hat
          cases name with
          | nil => exact absurd hat.1 (by rw [List.length_cons, List.length_nil]; omega)
          | cons d name =>
              rw [Alike, List.length_cons, List.take_succ_cons, List.map_cons, List.map_cons] at halike
              rcases List.cons.inj halike with ⟨hcd, hrest⟩
              exact .letter hc hcd.symm ((hwild name).mpr ⟨at_zero.mpr hrest, hspread⟩)

theorem pieces_single {pattern w : Octets} (h : pieces pattern = [w]) : w = pattern := by
  induction pattern generalizing w with
  | nil => exact (List.cons.inj h).1.symm
  | cons c p ih =>
      rcases wild_pieces p with ⟨w', ws, hp, -⟩
      by_cases hc : c = 42
      · rw [pieces, if_pos hc, hp] at h
        exact nomatch (List.cons.inj h).2
      · rw [pieces, if_neg hc, hp] at h
        rcases List.cons.inj h with ⟨rfl, rfl⟩
        rw [ih hp]

theorem getLast_pieces (pattern : Octets) (h : pattern ≠ []) :
    (pieces pattern).getLast? = some [] ↔ pattern.getLast? = some 42 := by
  induction pattern with
  | nil => exact absurd rfl h
  | cons c p ih =>
      rcases wild_pieces p with ⟨w, ws, hp, -⟩
      by_cases hc : c = 42
      · rw [pieces, if_pos hc, hp, List.getLast?_cons_cons, ← hp]
        cases p with
        | nil => exact iff_of_true rfl (by rw [hc]; rfl)
        | cons d p =>
            rw [List.getLast?_cons_cons]
            exact ih (List.cons_ne_nil _ _)
      · rw [pieces, if_neg hc, hp]
        cases p with
        | nil =>
            cases hp
            refine iff_of_false (fun h => ?_) fun h => hc (Option.some.inj h)
            exact nomatch Option.some.inj h
        | cons d p =>
            have hrest := ih (List.cons_ne_nil _ _)
            rw [List.getLast?_cons_cons, ← hrest, hp]
            cases ws with
            | nil =>
                rw [pieces_single hp]
                exact iff_of_false (fun h => nomatch Option.some.inj h) fun h => nomatch Option.some.inj h
            | cons w' ws => exact Iff.rfl

/-- The first piece is taken at the start of the text or not at all. -/
theorem wildcardMatch_pieces {name w : Octets} {ws : List Octets} (hws : ws ≠ []) :
    wildcardMatch name (w :: ws) = true ↔ At w name 0 ∧ wildcardLoop name false ws w.length = true := by
  have hloop : wildcardMatch name (w :: ws) = wildcardLoop name true (w :: ws) 0 := by
    cases ws with
    | nil => exact absurd rfl hws
    | cons _ _ => rfl
  have hfirst := place_isFirst w name
  have hfind : (if w = [] then some 0 else findPlace name w 0) = place w name := by
    split
    next hw => rw [hfirst.unique (.here (at_zero.mpr (by rw [hw]; rfl)))]
    next => exact (findPlace_isFirst name w 0).unique hfirst
  rw [hloop, wildcardLoop, hfind]
  cases hplace : place w name with
  | none =>
      rw [hplace] at hfirst
      exact iff_of_false Bool.false_ne_true fun h => hfirst 0 (Nat.le_refl 0) h.1
  | some n =>
      cases n with
      | zero =>
          simp only [ne_eq, not_true_eq_false, false_and, and_false, if_false, hws, Nat.zero_add]
          exact (and_iff_right (place_at hplace)).symm
      | succ n =>
          have hw : w ≠ [] := fun hw => absurd
            (place_le hplace 0 (at_zero.mpr (by rw [hw]; rfl))) (Nat.not_succ_le_zero n)
          simp only [ne_eq, Nat.succ_ne_zero, not_false_eq_true, hw, and_self, if_true]
          exact iff_of_false Bool.false_ne_true fun h =>
            absurd (place_le hplace 0 h.1) (Nat.not_succ_le_zero n)

theorem wildcardMatch_iff (pattern name : Octets) (h : pattern ≠ []) :
    wildcardMatch name (tokenise pattern) = true ↔ Wild pattern name ∧ Greedy pattern name := by
  rcases wild_pieces pattern with ⟨w, ws, hp, hwild⟩
  rw [tokenise, if_neg h, hwild, Greedy, ← getLast_pieces pattern h, hp]
  cases ws with
  | nil =>
      -- Without a star the pattern is as long as what it matches.
      rw [wildcardMatch, decide_eq_true_iff]
      refine ⟨fun halike => ?_, fun h => ?_⟩
      · have hlen := alike_length halike
        refine ⟨⟨at_zero.mpr ?_, List.drop_eq_nil_of_le (Nat.le_of_eq hlen)⟩,
          .inr fun part hpart hne hpw => ?_⟩
        · rwa [← hlen, List.take_length]
        · have hlt := length_lt_of_part hpart hne
          have hle := ((hwild part).mp hpw).1.1
          omega
      · have hall := at_zero.mp h.1.1
        rwa [List.take_of_length_le (List.drop_eq_nil_iff.mp h.1.2)] at hall
  | cons w' ws =>
      have hmore : w' :: ws ≠ [] := List.cons_ne_nil _ _
      rw [wildcardMatch_pieces hmore, and_assoc]
      refine and_congr_right fun hat => ?_
      have hlen := hat.1
      rw [Nat.zero_add] at hlen
      rw [wildcardLoop_iff name _ _ hmore hlen, Tight, ← parts_behind hlen, List.getLast?_cons_cons]
      refine and_congr_right fun _ => or_congr Iff.rfl (forall_congr' fun part =>
        imp_congr_right fun hpart => imp_congr_right fun _ => not_congr ?_)
      rw [hwild]
      refine and_congr_left fun _ => ⟨fun hle => ?_, fun hat' => ?_⟩
      · exact (at_part hpart (by rwa [Nat.zero_add])).mpr hat
      · have := hat'.1
        omega

end Patterns

end Text

end CryptoOpal

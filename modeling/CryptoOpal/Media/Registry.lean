import CryptoOpal.Media.Formats

/-!
# The Registry of Media Formats

Every media format that is constructed is appended to a list, unless the list has one with its
name. A payload type of the dynamic range that is in use is taken over: the format that has it
gets another one, which is the first that is not in use from 96 upwards, and then downwards.

This happens before the list is searched for the name. Constructing a format again therefore
moves the registered one to another payload type. The search for the name takes it for a
pattern, so that an empty name and most of those that begin with an exclamation mark or an at
sign are not found again. And when all payload types are in use, the search for one runs out of
its table.

## Main definitions

* `searchUnused`, `moveLast`, `deconflict`, `construct`, `run`: The constructions.
* `Consistent`: Names and dynamic payload types are unique.
* `Meets`, `EachMeets`: What a construction has to meet.

## Theorems

* `searchUnused_spec`: A payload type that is not in use is found, if there is one.
* `deconflict_spec`: What taking over a payload type does.
* `construct_spec`: One construction.
* `run_spec`, `run_consistent`: A run of them.
-/

namespace CryptoOpal

namespace Media

open Lib (Octets)

open Text (Alike Wild Greedy)

/-- The range of dynamic payload types. -/
def Dynamic (pt : Nat) : Prop := 96 ≤ pt ∧ pt < 127

instance (pt : Nat) : Decidable (Dynamic pt) := inferInstanceAs (Decidable (96 ≤ pt ∧ pt < 127))

/-- A registered format has this payload type. -/
def inUse (registered : List Format) (pt : Nat) : Bool :=
  registered.any fun f => decide (f.payloadType = pt)

/-- The loop for a payload type that is not in use. It reads a table of 127 entries. -/
def searchUnused (used : Nat → Bool) : Nat → Int → Option Nat
  | 0, _ => none
  | steps + 1, nextUnused =>
    if nextUnused < 0 ∨ 127 ≤ nextUnused then none
    else if used nextUnused.toNat then
      searchUnused used steps
        (if nextUnused < 96 then nextUnused - 1
        else if 127 ≤ nextUnused + 1 then 95
        else nextUnused + 1)
    else some nextUnused.toNat

/-- `SetPayloadType` of the last format with this payload type. -/
def moveLast (pt next : Nat) : List Format → List Format
  | [] => []
  | f :: rest =>
    if inUse rest pt then f :: moveLast pt next rest
    else if f.payloadType = pt then { f with payloadType := next } :: rest
    else f :: rest

/-- What the constructor of `OpalMediaFormatInternal` does to the registered formats. -/
def deconflict (registered : List Format) (pt : Nat) : Option (List Format) :=
  if ¬ Dynamic pt then some registered
  else if inUse registered pt then
    (searchUnused (inUse registered) 128 96).map fun next => moveLast pt next registered
  else some registered

/-- What becomes of the arguments. A plus in front of the encoding name makes a format
    transportable. -/
def Format.internal (f : Format) : Format :=
  if f.payloadType = 127 ∧ f.encodingName.head? = some 43 then
    { f with encodingName := f.encodingName.tail, forceIsTransportable := true }
  else f

/-- The constructor of `OpalMediaFormat`, and `Construct`. -/
def construct (registered : List Format) (f : Format) : Option (List Format) :=
  (deconflict registered f.payloadType).map fun registered =>
    match findFormat registered f.formatName none with
    | some _ => registered
    | none => registered ++ [f.internal]

/-- A sequence of constructions. -/
def run : List Format → List Format → Option (List Format)
  | registered, [] => some registered
  | registered, f :: fs => (construct registered f).bind fun registered => run registered fs

/-- A format with this name is registered. -/
def Registered (registered : List Format) (name : Octets) : Prop :=
  ∃ f ∈ registered, Alike f.formatName name

instance (registered : List Format) (name : Octets) : Decidable (Registered registered name) :=
  inferInstanceAs (Decidable (∃ f ∈ registered, Alike f.formatName name))

/-- Different dynamic payload types. -/
def Apart (registered : List Format) : Prop :=
  registered.Pairwise fun f g => Dynamic f.payloadType → f.payloadType ≠ g.payloadType

/-- Names and dynamic payload types are unique. -/
def Consistent (registered : List Format) : Prop :=
  registered.Pairwise (fun f g => ¬ Alike f.formatName g.formatName) ∧ Apart registered

/-- The name is not taken for something else. A payload type that is in use is taken over for a
    new name only, and when there is another one. -/
def Meets (registered : List Format) (f : Format) : Prop :=
  (f.formatName ≠ [] ∧ f.formatName.head? ≠ some 33 ∧ f.formatName.head? ≠ some 64) ∧
    (Dynamic f.payloadType → inUse registered f.payloadType = true →
      ¬ Registered registered f.formatName ∧ ∃ pt < 127, inUse registered pt = false)

/-- Every construction of a sequence meets the condition. -/
def EachMeets : List Format → List Format → Prop
  | _, [] => True
  | registered, f :: fs =>
    Meets registered f ∧
      ∀ registered', construct registered f = some registered' → EachMeets registered' fs

section Searching

variable {used : Nat → Bool}

theorem searchUnused_down (n : Nat) :
    ∀ steps, n < 96 → n < steps → (∃ pt ≤ n, used pt = false) →
      ∃ pt < 127, searchUnused used steps n = some pt ∧ used pt = false := by
  induction n with
  | zero =>
      intro steps _ hsteps hfree
      rcases hfree with ⟨pt, hpt, hfree⟩
      rw [Nat.le_zero.mp hpt] at hfree
      cases steps with
      | zero => exact absurd hsteps (Nat.lt_irrefl 0)
      | succ steps =>
          refine ⟨0, by decide, ?_, hfree⟩
          rw [searchUnused, if_neg (by omega), if_neg (by
            rw [show ((0 : Nat) : Int).toNat = 0 from rfl, hfree]
            decide)]
          rfl
  | succ n ih =>
      intro steps hn hsteps hfree
      cases steps with
      | zero => exact absurd hsteps (Nat.not_lt_zero _)
      | succ steps =>
          rw [searchUnused, if_neg (by omega), Int.toNat_natCast]
          split
          next hused =>
            -- The one in use is not the free one, so that this is further down.
            rw [if_pos (by omega), show ((n + 1 : Nat) : Int) - 1 = n by omega]
            refine ih steps (by omega) (by omega) ?_
            rcases hfree with ⟨pt, hpt, hfree⟩
            refine ⟨pt, Nat.le_of_lt_succ (Nat.lt_of_le_of_ne hpt fun heq => ?_), hfree⟩
            cases heq
            exact Bool.false_ne_true (hfree.symm.trans hused)
          next hfree => exact ⟨n + 1, by omega, rfl, (Bool.not_eq_true _).mp hfree⟩

/-- From 96 on the search goes up, and then down from 95. -/
theorem searchUnused_up (k : Nat) :
    ∀ n steps, n + k = 126 → 96 ≤ n → k + 97 ≤ steps →
      (∃ pt < 127, (n ≤ pt ∨ pt < 96) ∧ used pt = false) →
        ∃ pt < 127, searchUnused used steps n = some pt ∧ used pt = false := by
  induction k with
  | zero =>
      intro n steps hn _ hsteps hfree
      cases steps with
      | zero => omega
      | succ steps =>
          rw [searchUnused, if_neg (by omega), Int.toNat_natCast]
          split
          next hused =>
            rw [if_neg (by omega), if_pos (by omega)]
            -- Behind 126 the search turns round, and goes on below 96.
            refine searchUnused_down 95 steps (by decide) (by omega) ?_
            rcases hfree with ⟨pt, hpt, hside, hfree⟩
            have hne : pt ≠ n := fun heq => Bool.false_ne_true (hfree.symm.trans (heq ▸ hused))
            exact ⟨pt, by omega, hfree⟩
          next hfree => exact ⟨n, by omega, rfl, (Bool.not_eq_true _).mp hfree⟩
  | succ k ih =>
      intro n steps hn hlow hsteps hfree
      cases steps with
      | zero => omega
      | succ steps =>
          rw [searchUnused, if_neg (by omega), Int.toNat_natCast]
          split
          next hused =>
            rw [if_neg (by omega), if_neg (by omega), show (n : Int) + 1 = ((n + 1 : Nat) : Int) by omega]
            refine ih (n + 1) steps (by omega) (by omega) (by omega) ?_
            rcases hfree with ⟨pt, hpt, hside, hfree⟩
            have hne : pt ≠ n := fun heq => Bool.false_ne_true (hfree.symm.trans (heq ▸ hused))
            exact ⟨pt, hpt, by omega, hfree⟩
          next hfree => exact ⟨n, by omega, rfl, (Bool.not_eq_true _).mp hfree⟩

/-- A payload type that is not in use is found, if there is one. -/
theorem searchUnused_spec (h : ∃ pt < 127, used pt = false) :
    ∃ pt < 127, searchUnused used 128 96 = some pt ∧ used pt = false := by
  rcases h with ⟨pt, hpt, hfree⟩
  exact searchUnused_up 30 96 128 rfl (Nat.le_refl _) (by decide) ⟨pt, hpt, by omega, hfree⟩

end Searching

section Names

variable {p s : Octets}

/-- A star is itself in either case. -/
theorem toUpper_star (c : UInt8) : Text.toUpper c = 42 ↔ c = 42 := by
  rw [Text.toUpper]
  split <;> grind

/-- A pattern matches itself. -/
theorem wild_alike (h : Alike s p) : Wild p s := by
  induction p generalizing s with
  | nil => rw [List.map_eq_nil_iff.mp (show s.map Text.toUpper = [] from h)]; exact .nil
  | cons c p ih =>
      cases s with
      | nil => exact nomatch (show [] = (c :: p).map Text.toUpper from h)
      | cons d s =>
          rcases List.cons.inj (show Text.toUpper d :: s.map Text.toUpper =
            Text.toUpper c :: p.map Text.toUpper from h) with ⟨hcd, hrest⟩
          -- A star of the name is matched by the star of the pattern.
          by_cases hc : c = 42
          · rw [hc] at hcd ⊢
            rw [(toUpper_star d).mp hcd]
            exact .star [42] (ih hrest)
          · exact .letter hc hcd.symm (ih hrest)

/-- The letters of a text, without the stars. -/
def letters (s : Octets) : Nat := s.countP fun c => decide (c ≠ 42)

theorem letters_wild (h : Wild p s) : letters p ≤ letters s := by
  induction h with
  | nil => exact Nat.le_refl _
  | star x _ ih =>
      rw [letters, List.countP_cons_of_neg (by decide), letters, List.countP_append]
      exact Nat.le_trans ih (Nat.le_add_left _ _)
  | letter hc hcd _ ih =>
      have hd : _ ≠ _ := fun hd => hc ((toUpper_star _).mp (hcd.trans ((toUpper_star _).mpr hd)))
      rw [letters, List.countP_cons_of_pos (by rw [decide_eq_true hc]), letters,
        List.countP_cons_of_pos (by rw [decide_eq_true hd])]
      exact Nat.succ_le_succ ih

theorem letters_alike (h : Alike s p) : letters s = letters p :=
  Nat.le_antisymm (letters_wild (wild_alike h.symm)) (letters_wild (wild_alike h))

/-- A name is found by itself, since a shorter part has fewer letters. -/
theorem greedy_alike (h : Alike s p) : Greedy p s := by
  by_cases hstar : p.getLast? = some 42
  · exact .inl hstar
  refine .inr fun part hpart hne hwild => ?_
  rcases hpart with ⟨behind, rfl⟩
  have hbehind : behind ≠ [] := fun hnil => hne (by rw [hnil, List.append_nil])
  -- What is behind the part ends like the pattern, and that is no star.
  have hlast : letters behind ≠ 0 := by
    intro hzero
    have hend : behind.getLast hbehind = 42 := Decidable.byContradiction fun hne =>
      List.countP_eq_zero.mp hzero _ (List.getLast_mem hbehind) (decide_eq_true hne)
    have hsame : p.getLast?.map Text.toUpper = some 42 := by
      rw [← List.getLast?_map, ← show (part ++ behind).map Text.toUpper = p.map Text.toUpper from h,
        List.getLast?_map, List.getLast?_append, List.getLast?_eq_some_getLast hbehind, hend]
      rfl
    rcases Option.map_eq_some_iff.mp hsame with ⟨c, hc, hcase⟩
    exact hstar (by rw [hc, (toUpper_star c).mp hcase])
  have hle := letters_wild hwild
  rw [← letters_alike h, letters, List.countP_append] at hle
  rw [letters] at hlast hle
  omega

/-- A registered name is found, unless it begins with a sign. -/
theorem findFormat_isSome {registered : List Format} (hname : p ≠ []) (h33 : p.head? ≠ some 33)
    (h64 : p.head? ≠ some 64) (h : Registered registered p) :
    ∃ i, findFormat registered p none = some i := by
  rcases h with ⟨f, hf, halike⟩
  rcases List.mem_iff_getElem?.mp hf with ⟨i, hi⟩
  have hmatch : orderMatch p f = true := by
    rw [orderMatch_iff hname, Named, if_neg h64]
    exact ⟨wild_alike halike, .inr (greedy_alike halike)⟩
  rw [findFormat, if_neg hname]
  simp only [decide_eq_false h33, Bool.false_eq_true, if_false, if_neg hname]
  have hfirst := @walk_isFirst registered (fun f => decide (orderMatch p f ≠ false)) _ 0 rfl
  cases hwalk : walk (fun f => decide (orderMatch p f ≠ false)) (registered.drop 0) 0 with
  | some j => exact ⟨j, hwalk⟩
  | none =>
      rw [hwalk] at hfirst
      have hcode : decide (orderMatch p f ≠ false) = true := by
        rw [hmatch]
        rfl
      exact absurd ⟨f, hi, hcode⟩ (hfirst i (Nat.zero_le i))

end Names

section Moves

variable {registered : List Format} {f : Format} {pt next : Nat}

theorem inUse_iff : inUse registered pt = true ↔ ∃ f ∈ registered, f.payloadType = pt := by
  rw [inUse, List.any_eq_true]
  exact exists_congr fun f => and_congr_right fun _ => decide_eq_true_iff

theorem inUse_false : inUse registered pt = false ↔ ∀ f ∈ registered, f.payloadType ≠ pt := by
  rw [← Bool.not_eq_true, inUse_iff, not_exists]
  exact forall_congr' fun f => not_and

/-- A format with this payload type gets the other one. -/
def moved (pt next : Nat) (f : Format) : Format :=
  if f.payloadType = pt then { f with payloadType := next } else f

@[simp] theorem formatName_moved : (moved pt next f).formatName = f.formatName := by
  rw [moved]
  split <;> rfl

theorem moved_of_ne (h : f.payloadType ≠ pt) : moved pt next f = f := if_neg h

theorem payloadType_moved (h : f.payloadType = pt) : (moved pt next f).payloadType = next := by
  rw [moved, if_pos h]

/-- There is only one format to move. -/
theorem moveLast_eq (hpt : Dynamic pt) (h : Apart registered) :
    moveLast pt next registered = registered.map (moved pt next) := by
  induction registered with
  | nil => rfl
  | cons f rest ih =>
      rcases List.pairwise_cons.mp h with ⟨hf, hrest⟩
      rw [moveLast, List.map_cons]
      split
      next hused =>
        -- The loop looks for the last one, and there is no other in front of it.
        rcases inUse_iff.mp hused with ⟨g, hg, hgpt⟩
        have hne : f.payloadType ≠ pt := fun heq =>
          hf g hg (by rwa [heq]) (heq.trans hgpt.symm)
        rw [ih hrest, moved_of_ne hne]
      next hused =>
        have hnone := inUse_false.mp ((Bool.not_eq_true _).mp hused)
        have hrestId : rest.map (moved pt next) = rest :=
          (List.map_congr_left fun g hg => moved_of_ne (hnone g hg)).trans (List.map_id rest)
        rw [hrestId, moved]
        split <;> rfl

/-- Taking over a payload type leaves it free, and the others apart. -/
theorem deconflict_spec (h : Apart registered)
    (hfree : Dynamic pt → inUse registered pt = true → ∃ n < 127, inUse registered n = false) :
    ∃ registered', deconflict registered pt = some registered' ∧ Apart registered' ∧
      registered'.map Format.formatName = registered.map Format.formatName ∧
      (Dynamic pt → inUse registered' pt = false) ∧
      (¬ (Dynamic pt ∧ inUse registered pt = true) → registered' = registered) := by
  rw [deconflict]
  by_cases hpt : Dynamic pt
  · rw [if_neg (not_not_intro hpt)]
    cases hused : inUse registered pt with
    | false =>
        rw [if_neg Bool.false_ne_true]
        exact ⟨registered, rfl, h, rfl, fun _ => hused, fun _ => rfl⟩
    | true =>
        rcases searchUnused_spec (hfree hpt hused) with ⟨next, -, hnext, hunused⟩
        have hne : next ≠ pt := by
          rintro rfl
          exact Bool.false_ne_true (hunused.symm.trans hused)
        rw [if_pos rfl, hnext, Option.map_some]
        refine ⟨_, rfl, ?_, ?_, fun _ => ?_, fun hno => absurd ⟨hpt, rfl⟩ hno⟩
        · rw [moveLast_eq hpt h, Apart, List.pairwise_map]
          have hother := inUse_false.mp hunused
          refine List.Pairwise.imp_of_mem (fun {a b} ha hb hab => ?_) h
          -- At most one of two formats is moved, and to a number that neither has.
          by_cases hapt : a.payloadType = pt
          · have hbpt : b.payloadType ≠ pt := fun hbpt =>
              hab (by rwa [hapt]) (hapt.trans hbpt.symm)
            rw [payloadType_moved hapt, moved_of_ne hbpt]
            exact fun _ heq => hother b hb heq.symm
          · rw [moved_of_ne hapt]
            by_cases hbpt : b.payloadType = pt
            · rw [payloadType_moved hbpt]
              exact fun _ => hother a ha
            · rw [moved_of_ne hbpt]
              exact hab
        · rw [moveLast_eq hpt h, List.map_map]
          refine List.map_congr_left fun g _ => formatName_moved
        · rw [moveLast_eq hpt h, inUse_false]
          intro g hg
          rcases List.mem_map.mp hg with ⟨k, -, rfl⟩
          rw [moved]
          split
          · exact hne
          next hk => exact hk
  · rw [if_pos hpt]
    exact ⟨registered, rfl, h, rfl, fun hd => absurd hd hpt, fun _ => rfl⟩

end Moves

section Runs

variable {registered : List Format} {f : Format}

theorem formatName_internal (f : Format) : f.internal.formatName = f.formatName := by
  rw [Format.internal]
  split <;> rfl

theorem payloadType_internal (f : Format) : f.internal.payloadType = f.payloadType := by
  rw [Format.internal]
  split <;> rfl

theorem registered_iff (name : Octets) :
    Registered registered name ↔ ∃ other ∈ registered.map Format.formatName, Alike other name := by
  refine ⟨?_, ?_⟩
  · rintro ⟨f, hf, halike⟩
    exact ⟨_, List.mem_map_of_mem hf, halike⟩
  · rintro ⟨other, hother, halike⟩
    rcases List.mem_map.mp hother with ⟨f, hf, rfl⟩
    exact ⟨f, hf, halike⟩

/-- One construction. -/
theorem construct_spec (hmeets : Meets registered f) (h : Consistent registered) :
    ∃ registered', construct registered f = some registered' ∧ Consistent registered' ∧
      (Registered registered f.formatName → registered' = registered) := by
  rcases hmeets with ⟨⟨hname, h33, h64⟩, hpayload⟩
  rcases deconflict_spec h.2 (fun hd hu => (hpayload hd hu).2)
    with ⟨registered', hdeconflict, hapart, hnames, hfreed, hsame⟩
  -- Taking over a payload type leaves the names as they are.
  have hpair : registered'.Pairwise fun f g => ¬ Alike f.formatName g.formatName := by
    have hold : (registered.map Format.formatName).Pairwise fun m n => ¬ Alike m n :=
      List.pairwise_map.mpr h.1
    rw [← hnames] at hold
    exact List.pairwise_map.mp hold
  have hregistered : Registered registered' f.formatName ↔ Registered registered f.formatName := by
    rw [registered_iff, registered_iff, hnames]
  rw [construct, hdeconflict, Option.map_some]
  cases hfind : findFormat registered' f.formatName none with
  | some i =>
      -- A registered name is found, and a payload type would have been taken over for nothing.
      refine ⟨registered', rfl, ⟨hpair, hapart⟩, fun hreg => hsame fun htaken => ?_⟩
      exact (hpayload htaken.1 htaken.2).1 hreg
  | none =>
      have hnew : ¬ Registered registered' f.formatName := by
        intro hreg
        rcases findFormat_isSome hname h33 h64 hreg with ⟨i, hi⟩
        rw [hfind] at hi
        exact nomatch hi
      refine ⟨registered' ++ [f.internal], rfl, ⟨?_, ?_⟩, fun hreg =>
        absurd (hregistered.mpr hreg) hnew⟩
      · refine List.pairwise_append.mpr ⟨hpair, List.pairwise_singleton _ _, fun a ha b hb => ?_⟩
        rw [List.mem_singleton.mp hb, formatName_internal]
        exact fun halike => hnew ⟨a, ha, halike⟩
      · refine List.pairwise_append.mpr ⟨hapart, List.pairwise_singleton _ _,
          fun a ha b hb hd heq => ?_⟩
        rw [List.mem_singleton.mp hb, payloadType_internal] at heq
        rw [heq] at hd
        exact inUse_false.mp (hfreed hd) a ha heq

/-- From a consistent registry on, every construction of a run leads to another one. -/
theorem run_spec (fs : List Format) :
    ∀ registered, Consistent registered → EachMeets registered fs →
      ∀ before f after, fs = before ++ f :: after →
        ∃ state state', run registered before = some state ∧ construct state f = some state' ∧
          Consistent state ∧ Consistent state' ∧
          (Registered state f.formatName → state' = state) := by
  induction fs with
  | nil =>
      exact fun _ _ _ before f after h =>
        absurd h.symm (List.append_ne_nil_of_right_ne_nil _ (List.cons_ne_nil _ _))
  | cons g fs ih =>
      intro registered h hmeets before f after hsplit
      rcases construct_spec hmeets.1 h with ⟨state, hstate, hconsistent, hsame⟩
      cases before with
      | nil =>
          cases hsplit
          exact ⟨registered, state, rfl, hstate, h, hconsistent, hsame⟩
      | cons b before =>
          cases hsplit
          rcases ih state hconsistent (hmeets.2 state hstate) before f after rfl
            with ⟨s, s', hs, hs', hcons⟩
          refine ⟨s, s', ?_, hs', hcons⟩
          rw [run, hstate, Option.bind_some, hs]

/-- In every state of a run whose constructions meet the condition, names and dynamic payload
    types are unique. Every search for a payload type stays in its table, and constructing a
    format with a registered name changes nothing. -/
theorem run_consistent (fs : List Format) (hmeets : EachMeets [] fs) :
    ∀ before f after, fs = before ++ f :: after →
      ∃ state state', run [] before = some state ∧ construct state f = some state' ∧
        Consistent state ∧ Consistent state' ∧
        (Registered state f.formatName → state' = state) :=
  run_spec fs [] ⟨List.Pairwise.nil, List.Pairwise.nil⟩ hmeets

/-- A format with a dynamic payload type. -/
def dynamicFormat : Format where
  formatName := [65]
  mediaType := []
  payloadType := 96
  encodingName := [65]
  clockRate := 8000
  forceIsTransportable := false

theorem run_consistent_once :
    ∃ state state', run [] [] = some state ∧ construct state dynamicFormat = some state' ∧
      Consistent state ∧ Consistent state' ∧
      (Registered state dynamicFormat.formatName → state' = state) :=
  run_consistent [dynamicFormat]
    ⟨⟨by decide, fun _ h => absurd h (by decide)⟩, fun _ _ => trivial⟩ [] dynamicFormat [] rfl

/-- Constructing it again moves the registered one to another payload type. -/
theorem changed_twice :
    construct [] dynamicFormat = some [dynamicFormat] ∧
      Registered [dynamicFormat] dynamicFormat.formatName ∧
        construct [dynamicFormat] dynamicFormat ≠ some [dynamicFormat] := by
  decide

end Runs

end Media

end CryptoOpal

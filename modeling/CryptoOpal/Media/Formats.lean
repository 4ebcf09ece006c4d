import CryptoOpal.Lib.Reorder
import CryptoOpal.Text.Wildcard

/-!
# Lists of Media Formats

Media formats are looked for by a pattern for their name, by their media type, or by an encoding
name and a payload type, and a list of them is put into the order of a list of patterns.

An exclamation mark in front of a pattern asks for the first format that does not match. The
search for a number goes on where the search for a name ended, which is the end of the list.

## Main definitions

* `Format`: What the searches read of a format.
* `findFormat`, `findFormatNumber`, `reorder`: The functions.
* `Searched`, `Missed`: What a search asks for, and what the matcher is wrong about.
* `Answers`: What is asked for by name and number.

## Theorems

* `searchMatch_iff`: The matcher is wrong about the formats that it misses only.
* `findFormat_iff`, `findFormatNumber_iff`: When the answers are right.
* `lookup_iff`: Both.
* `reorder_iff`: When the order is right.
-/

namespace CryptoOpal

namespace Media

open Lib (Octets)

open Text (Wild Greedy wildcardMatch tokenise)

/-- What the searches read of a media format. -/
structure Format where
  formatName : Octets
  mediaType : Octets
  payloadType : Nat
  encodingName : Octets
  clockRate : Nat
  forceIsTransportable : Bool
  deriving DecidableEq

/-- The place of the first format with a property. -/
def walk (p : Format → Bool) : List Format → Nat → Option Nat
  | [], _ => none
  | f :: formats, i => if p f then some i else walk p formats (i + 1)

/-- Where a search begins: at the start, or behind the position that is given. -/
def begins : Option Nat → Nat
  | none => 0
  | some i => i + 1

/-- A media type behind an at sign, or a pattern for the name. -/
def orderMatch (pattern : Octets) (f : Format) : Bool :=
  if pattern.head? = some 64 then decide (f.mediaType = pattern.tail)
  else wildcardMatch f.formatName (tokenise pattern)

/-- `FindFormat`, of a search text. -/
def findFormat (formats : List Format) (search : Octets) (iter : Option Nat) : Option Nat :=
  if search = [] then none
  else
    let negative := decide (search.head? = some 33)
    let adjusted := if negative then search.tail else search
    if adjusted = [] then none
    else
      walk (fun f => decide (orderMatch adjusted f ≠ negative)) (formats.drop (begins iter))
        (begins iter)

/-- `IsValidForProtocol`. -/
def Format.isValidForProtocol (f : Format) (protocol : Octets) : Bool :=
  if Text.Alike protocol [115, 105, 112] then decide (f.encodingName ≠ []) || f.forceIsTransportable
  else true

/-- The clock rate and the protocol, where they are asked for. -/
def Format.suits (f : Format) (clockRate : Nat) (protocol : Option Octets) : Bool :=
  (decide (clockRate = 0) || decide (clockRate = f.clockRate)) &&
    match protocol with
    | none => true
    | some protocol => f.isValidForProtocol protocol

/-- `FindFormat`, of a payload type and an encoding name. -/
def findFormatNumber (formats : List Format) (pt clockRate : Nat) (name : Octets)
    (protocol : Option Octets) (format : Option Nat) : Option Nat :=
  let byName := if name = [] then none
    else walk (fun f => Url.sameCaseless f.encodingName name && f.suits clockRate protocol)
      (formats.drop (begins format)) (begins format)
  match byName with
  | some i => some i
  | none =>
    -- where the loop for the name, if there was one, left the iterator
    let rest := if name = [] then begins format else max (begins format) formats.length
    if pt < 96 then
      walk (fun f => decide (f.payloadType = pt) && f.suits clockRate protocol) (formats.drop rest)
        rest
    else none

/-- `Reorder`. -/
def reorder (formats : List Format) (order : List Octets) : List Format :=
  (order.foldl (fun s pattern => Lib.pass s (orderMatch pattern)) (formats, 0)).1

/-- A format of this kind is at this place. -/
def Has (formats : List Format) (P : Format → Prop) (i : Nat) : Prop :=
  ∃ f, formats[i]? = some f ∧ P f

/-- The media type or the pattern names this format. -/
def Named (pattern : Octets) (f : Format) : Prop :=
  if pattern.head? = some 64 then f.mediaType = pattern.tail else Wild pattern f.formatName

/-- The search asks for this format. -/
def Searched (search : Octets) (f : Format) : Prop :=
  if search.head? = some 33 then search.tail ≠ [] ∧ ¬ Named search.tail f
  else search ≠ [] ∧ Named search f

/-- The pattern matches the name and also a shorter part of it, and does not end with a star. -/
def Missed (search : Octets) (f : Format) : Prop :=
  let pattern := if search.head? = some 33 then search.tail else search
  pattern ≠ [] ∧ pattern.head? ≠ some 64 ∧ Wild pattern f.formatName ∧
    ¬ Greedy pattern f.formatName

/-- The format with this encoding name, or else the one with this payload type. -/
def Answers (formats : List Format) (pt clockRate : Nat) (name : Octets)
    (protocol : Option Octets) (format : Option Nat) (r : Option Nat) : Prop :=
  let byName := Has formats fun f =>
    name ≠ [] ∧ Url.sameCaseless f.encodingName name = true ∧ f.suits clockRate protocol = true
  let byNumber := Has formats fun f =>
    pt < 96 ∧ f.payloadType = pt ∧ f.suits clockRate protocol = true
  (∃ i, begins format ≤ i ∧ byName i) ∧ Lib.IsFirst byName (begins format) r ∨
    (∀ i, begins format ≤ i → ¬ byName i) ∧ Lib.IsFirst byNumber (begins format) r

section Walking

variable {formats : List Format} {P Q : Format → Prop} {i : Nat}

/-- A loop over the rest of the formats finds the first one. -/
theorem walk_isFirst (p : Format → Bool) (rest : List Format) :
    ∀ start, formats.drop start = rest →
      Lib.IsFirst (Has formats fun f => p f = true) start (walk p rest start) := by
  induction rest with
  | nil =>
      intro start h i hi hhas
      rcases hhas with ⟨f, hf, -⟩
      have hlt := (List.getElem?_eq_some_iff.mp hf).1
      have hle := List.drop_eq_nil_iff.mp h
      omega
  | cons f rest ih =>
      intro start h
      have hget : formats[start]? = some f := by
        have hzero := congrArg (fun l => l[0]?) h
        rwa [List.getElem?_drop] at hzero
      rw [walk]
      split
      next hp => exact .here ⟨f, hget, hp⟩
      next hp =>
        refine .next (fun hhas => ?_) (ih (start + 1) ?_)
        · rcases hhas with ⟨g, hg, hpg⟩
          rw [hget] at hg
          exact hp (Option.some.inj hg ▸ hpg)
        · rw [← List.drop_drop, h]
          rfl

theorem has_congr {wrong : Format → Prop} (h : ∀ f, ¬ wrong f → (P f ↔ Q f))
    (hi : ¬ Has formats wrong i) : Has formats P i ↔ Has formats Q i := by
  refine exists_congr fun f => and_congr_right fun hf => h f fun hw => hi ⟨f, hf, hw⟩

theorem has_not {wrong : Format → Prop} (h : ∀ f, wrong f → (P f ↔ ¬ Q f))
    (hi : Has formats wrong i) : Has formats P i ↔ ¬ Has formats Q i := by
  rcases hi with ⟨f, hf, hw⟩
  constructor
  · rintro ⟨g, hg, hP⟩ ⟨k, hk, hQ⟩
    rw [hf] at hg hk
    cases hg
    cases hk
    exact (h f hw).mp hP hQ
  · exact fun hQ => ⟨f, hf, (h f hw).mpr fun hQf => hQ ⟨f, hf, hQf⟩⟩

end Walking

section Lookup

variable {f : Format} {pattern search : Octets}

/-- The matcher is wrong about the formats that it misses, and about no others. -/
theorem orderMatch_iff (h : pattern ≠ []) :
    orderMatch pattern f = true ↔
      Named pattern f ∧ (pattern.head? = some 64 ∨ Greedy pattern f.formatName) := by
  rw [orderMatch, Named]
  by_cases ht : pattern.head? = some 64
  · rw [if_pos ht, if_pos ht, decide_eq_true_iff]
    exact (and_iff_left (.inl ht)).symm
  · rw [if_neg ht, if_neg ht, Text.wildcardMatch_iff _ _ h]
    exact and_congr_right fun _ => (or_iff_right ht).symm

theorem missed_iff (h : pattern ≠ []) :
    (pattern ≠ [] ∧ pattern.head? ≠ some 64 ∧ Wild pattern f.formatName ∧
        ¬ Greedy pattern f.formatName) ↔ Named pattern f ∧ ¬ orderMatch pattern f = true := by
  rw [orderMatch_iff h, Named]
  by_cases ht : pattern.head? = some 64
  · exact iff_of_false (fun hm => hm.2.1 ht) fun hm => hm.2 ⟨hm.1, .inl ht⟩
  · rw [if_neg ht]
    refine ⟨fun hm => ⟨hm.2.2.1, fun hg => ?_⟩, fun hm => ⟨h, ht, hm.1, fun hg => hm.2 ⟨hm.1, .inr hg⟩⟩⟩
    exact hg.2.elim ht hm.2.2.2

/-- An answer is the first format that is asked for exactly when one that is asked for comes in
    front of every format that the matcher misses. -/
theorem findFormat_iff (formats : List Format) (search : Octets) (iter : Option Nat) :
    Lib.IsFirst (Has formats (Searched search)) (begins iter) (findFormat formats search iter) ↔
      ∀ i, begins iter ≤ i → Has formats (Missed search) i →
        ∃ j, begins iter ≤ j ∧ j < i ∧ Has formats (Searched search) j := by
  by_cases hempty : search = [] ∨ search = [33]
  · -- Nothing is asked for, and nothing is found.
    have hnone : findFormat formats search iter = none := by
      rcases hempty with rfl | rfl <;> rfl
    have hno : ∀ f, ¬ Searched search f ∧ ¬ Missed search f := by
      intro f
      rcases hempty with rfl | rfl
      · exact ⟨fun h => h.1 rfl, fun h => h.1 rfl⟩
      · exact ⟨fun h => h.1 rfl, fun h => h.1 rfl⟩
    rw [hnone]
    refine iff_of_true (fun i _ hhas => ?_) fun i _ hhas => ?_
    · rcases hhas with ⟨f, -, hf⟩
      exact absurd hf (hno f).1
    · rcases hhas with ⟨f, -, hf⟩
      exact absurd hf (hno f).2
  rw [not_or] at hempty
  rw [findFormat, if_neg hempty.1]
  by_cases hneg : search.head? = some 33
  · have htail : search.tail ≠ [] := by
      intro htail
      cases search with
      | nil => exact hempty.1 rfl
      | cons c rest =>
          rw [List.head?_cons, Option.some.injEq] at hneg
          rw [List.tail_cons] at htail
          exact hempty.2 (by rw [hneg, htail])
    simp only [decide_eq_true hneg, if_true, if_neg htail]
    refine Lib.IsFirst.differ (fun i hi => has_congr (fun f hw => ?_) hi)
      (fun i hi => has_not (fun f hw => ?_) hi) (walk_isFirst _ _ _ rfl)
    · simp only [Missed, Searched, if_pos hneg] at hw ⊢
      rw [missed_iff htail] at hw
      rw [decide_eq_true_iff, and_iff_right htail]
      refine not_congr ⟨fun h => ((orderMatch_iff htail).mp h).1, fun h => ?_⟩
      exact Decidable.byContradiction fun hno => hw ⟨h, hno⟩
    · simp only [Missed, Searched, if_pos hneg] at hw ⊢
      rw [missed_iff htail] at hw
      rw [decide_eq_true_iff]
      exact iff_of_true hw.2 fun h => h.2 hw.1
  · simp only [decide_eq_false hneg, Bool.false_eq_true, if_false, if_neg hempty.1]
    refine Lib.IsFirst.differ (fun i hi => has_congr (fun f hw => ?_) hi)
      (fun i hi => has_not (fun f hw => ?_) hi) (walk_isFirst _ _ _ rfl)
    · simp only [Missed, Searched, if_neg hneg] at hw ⊢
      rw [missed_iff hempty.1] at hw
      rw [decide_eq_true_iff, and_iff_right hempty.1, Bool.ne_false_iff]
      refine ⟨fun h => ((orderMatch_iff hempty.1).mp h).1, fun h => ?_⟩
      exact Decidable.byContradiction fun hno => hw ⟨h, hno⟩
    · simp only [Missed, Searched, if_neg hneg] at hw ⊢
      rw [missed_iff hempty.1] at hw
      rw [decide_eq_true_iff, Bool.ne_false_iff]
      exact iff_of_false hw.2 fun h => h ⟨hempty.1, hw.1⟩

/-- The format with the payload type is not found when a name is given. -/
theorem findFormatNumber_iff (formats : List Format) (pt clockRate : Nat) (name : Octets)
    (protocol : Option Octets) (format : Option Nat) :
    Answers formats pt clockRate name protocol format
        (findFormatNumber formats pt clockRate name protocol format) ↔
      (name = [] ∨ 96 ≤ pt ∨
        (∃ i, begins format ≤ i ∧ Has formats (fun f =>
          Url.sameCaseless f.encodingName name = true ∧ f.suits clockRate protocol = true) i) ∨
        ∀ i, begins format ≤ i → ¬ Has formats (fun f =>
          f.payloadType = pt ∧ f.suits clockRate protocol = true) i) := by
  have hnumber : ∀ start, Lib.IsFirst
      (Has formats fun f => pt < 96 ∧ f.payloadType = pt ∧ f.suits clockRate protocol = true) start
      (if pt < 96 then walk (fun f => decide (f.payloadType = pt) && f.suits clockRate protocol)
        (formats.drop start) start else none) := by
    intro start
    split
    next hpt =>
      have hwalk := @walk_isFirst formats
        (fun f => decide (f.payloadType = pt) && f.suits clockRate protocol) _ start rfl
      simpa only [hpt, true_and, Bool.and_eq_true, decide_eq_true_iff] using hwalk
    next hpt =>
      rintro i - ⟨f, -, hf⟩
      exact hpt hf.1
  rw [Answers, findFormatNumber]
  by_cases hname : name = []
  · -- Without a name the search for the number begins at the start.
    simp only [hname, if_true, ne_eq, not_true_eq_false, false_and, true_or, iff_true]
    refine .inr ⟨?_, hnumber _⟩
    rintro i - ⟨f, -, hf⟩
    exact hf
  simp only [hname, if_false, ne_eq, not_false_eq_true, true_and, false_or]
  have hwalk := @walk_isFirst formats
    (fun f => Url.sameCaseless f.encodingName name && f.suits clockRate protocol) _
    (begins format) rfl
  simp only [Bool.and_eq_true] at hwalk
  cases hfound : walk (fun f => Url.sameCaseless f.encodingName name && f.suits clockRate protocol)
      (formats.drop (begins format)) (begins format) with
  | some i =>
      rw [hfound] at hwalk
      have hsome : ∃ i, begins format ≤ i ∧ Has formats (fun f =>
          Url.sameCaseless f.encodingName name = true ∧ f.suits clockRate protocol = true) i :=
        ⟨i, hwalk.1⟩
      exact iff_of_true (.inl ⟨hsome, hwalk⟩) (.inr (.inl hsome))
  | none =>
      rw [hfound] at hwalk
      have hnone : ¬ ∃ i, begins format ≤ i ∧ Has formats (fun f =>
          Url.sameCaseless f.encodingName name = true ∧ f.suits clockRate protocol = true) i :=
        fun h => hwalk h.choose h.choose_spec.1 h.choose_spec.2
      -- The iterator is at the end, and the search for the number finds nothing.
      simp only [List.drop_eq_nil_of_le (Nat.le_max_right _ _), walk, ite_self]
      have hall : ∀ i, begins format ≤ i → ¬ Has formats (fun f =>
          Url.sameCaseless f.encodingName name = true ∧ f.suits clockRate protocol = true) i := hwalk
      rw [or_iff_right fun h => hnone h.1, and_iff_right hall, or_iff_right hnone]
      by_cases hpt : pt < 96
      · rw [or_iff_right (Nat.not_le_of_lt hpt)]
        simp only [hpt, true_and]
        rfl
      · refine iff_of_true ?_ (.inl (Nat.le_of_not_lt hpt))
        rintro i - ⟨f, -, hf⟩
        exact hpt hf.1

/-- Both searches. -/
theorem lookup_iff (formats : List Format) (search : Octets) (pt clockRate : Nat) (name : Octets)
    (protocol : Option Octets) (iter : Option Nat) :
    (Lib.IsFirst (Has formats (Searched search)) (begins iter) (findFormat formats search iter) ↔
        ∀ i, begins iter ≤ i → Has formats (Missed search) i →
          ∃ j, begins iter ≤ j ∧ j < i ∧ Has formats (Searched search) j) ∧
      (Answers formats pt clockRate name protocol iter
          (findFormatNumber formats pt clockRate name protocol iter) ↔
        (name = [] ∨ 96 ≤ pt ∨
          (∃ i, begins iter ≤ i ∧ Has formats (fun f =>
            Url.sameCaseless f.encodingName name = true ∧ f.suits clockRate protocol = true) i) ∨
          ∀ i, begins iter ≤ i → ¬ Has formats (fun f =>
            f.payloadType = pt ∧ f.suits clockRate protocol = true) i)) :=
  ⟨findFormat_iff formats search iter, findFormatNumber_iff formats pt clockRate name protocol iter⟩

/-- A format with this name. -/
def formatNamed (name : Octets) : Format where
  formatName := name
  mediaType := []
  payloadType := 0
  encodingName := []
  clockRate := 8000
  forceIsTransportable := false

/-- The pattern `*ab` does not find the format `abab`. -/
theorem not_found_abab :
    ¬ Lib.IsFirst (Has [formatNamed [97, 98, 97, 98]] (Searched [42, 97, 98])) (begins none)
      (findFormat [formatNamed [97, 98, 97, 98]] [42, 97, 98] none) := by
  have hnone : findFormat [formatNamed [97, 98, 97, 98]] [42, 97, 98] none = none := by decide
  rw [hnone]
  intro h
  refine h 0 (Nat.le_refl 0) ⟨_, rfl, by decide, ?_⟩
  refine Wild.star [97, 98] (.letter (by decide) rfl (.letter (by decide) rfl .nil))

end Lookup

/-- The order comes out exactly when no pattern comes to a format that an earlier one matches,
    before the formats that match no earlier one are in order. -/
theorem reorder_iff (formats : List Format) (order : List Octets) :
    Lib.IsOrdered (order.map orderMatch) formats (reorder formats order) ↔
      Lib.Settled (order.map orderMatch) formats := by
  have hrun : reorder formats order = Lib.reorder (order.map orderMatch) formats := by
    rw [reorder, Lib.reorder, List.foldl_map]
  rw [hrun, Lib.reorder_isOrdered_iff]

/-- The patterns `a`, `a` and `c` leave the formats `a`, `b` and `c` as they are. -/
theorem not_ordered_twice :
    ¬ Lib.IsOrdered ([[97], [97], [99]].map orderMatch)
      [formatNamed [97], formatNamed [98], formatNamed [99]]
      (reorder [formatNamed [97], formatNamed [98], formatNamed [99]] [[97], [97], [99]]) :=
  fun h => absurd h.2.1 (by decide)

end Media

end CryptoOpal

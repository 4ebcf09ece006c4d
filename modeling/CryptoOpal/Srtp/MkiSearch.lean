import CryptoOpal.Srtp.Bounds

/-!
# Finding the Sender's MKI

The sender puts the MKI of its keys right before the tag. The receiver tries
the keys of its stream in turn and takes the first whose MKI it finds there.
It takes the sender's keys if their MKI stands out (`MkiStandsOut`): it is not
empty, the packet before it is at least as long, and no MKI that is tried
earlier is confused with it.

Two MKIs are confused if one ends with the other. Where the earlier one is
the longer, it depends on the octets before the MKI, and `MkiStandsOut` asks
for more than is needed.

## Main definitions

* `SessionKeys.relabel`: The same keys in another session's table.
* `MkiStandsOut`: The MKI at an index is found.

## Theorems

* `findMki_eq_ok`: What the search finds.
* `findMki_of_standsOut`: An MKI that stands out is found.
* `standsOut_of_findMki`: The converse, for MKIs of one length.
-/

namespace CryptoOpal

namespace Srtp

open Lib (Octets slice)

variable {C A : Type}

/-- The same keys under another number. -/
def SessionKeys.relabel (f : Nat → Nat) (keys : SessionKeys C A) : SessionKeys C A :=
  { keys with ref := f keys.ref }

/-- The MKI of the keys at an index is found before a tag, after `len` octets
    of packet. -/
structure MkiStandsOut (l : List (SessionKeys C A)) (index : Nat) (keys : SessionKeys C A)
    (len : Nat) : Prop where
  nonempty : keys.mkiId ≠ []
  room : keys.mkiId.length ≤ len
  earlier : ∀ a ∈ l.take index, a.mkiId ≠ [] → a.mkiId.length ≤ len + keys.mkiId.length ∧
    ¬ a.mkiId <:+ keys.mkiId ∧ ¬ keys.mkiId <:+ a.mkiId

/-- The search goes on past these keys. -/
def PassedOver (pkt : Octets) (base : Nat) (keys : SessionKeys C A) : Prop :=
  keys.mkiId.length ≠ 0 → keys.mkiId.length ≤ base ∧ ¬ MkiAt pkt base keys

section Search

variable {pkt : Octets} {base : Nat}

/-- Another session's numbers make no difference to the search. -/
theorem findMki_relabel (f : Nat → Nat) (pkt : Octets) (base : Nat)
    (l : List (SessionKeys C A)) :
    findMki pkt base (l.map (SessionKeys.relabel f)) =
      (findMki pkt base l).map fun r => (r.1.relabel f, r.2) := by
  induction l with
  | nil => rfl
  | cons keys l ih =>
      have hmki : (keys.relabel f).mkiId = keys.mkiId := rfl
      rw [List.map_cons, findMki, findMki, ih, hmki]
      by_cases hempty : keys.mkiId.length = 0
      · rw [if_pos hempty, if_pos hempty]
      rw [if_neg hempty, if_neg hempty]
      by_cases hroom : keys.mkiId.length ≤ sub32 base keys.mkiId.length
      · rw [if_pos hroom, if_pos hroom]
        cases inside pkt (sub32 base keys.mkiId.length) keys.mkiId.length with
        | error stop => rfl
        | ok u =>
            simp only [bind, Except.bind]
            split <;> rfl
      · rw [if_neg hroom, if_neg hroom]

/-- The search finds the first keys that it does not pass over. -/
theorem findMki_eq_ok (hn : pkt.length < 2 ^ 31) (hbase : base ≤ pkt.length)
    {l : List (SessionKeys C A)} {keys : SessionKeys C A} {mkiSize : Nat} :
    findMki pkt base l = .ok (keys, mkiSize) ↔
      ∃ pre post, l = pre ++ keys :: post ∧ (∀ a ∈ pre, PassedOver pkt base a) ∧
        keys.mkiId.length ≠ 0 ∧ keys.mkiId.length ≤ base ∧ MkiAt pkt base keys ∧
        mkiSize = keys.mkiId.length := by
  induction l with
  | nil =>
      refine iff_of_false (by simp only [findMki, reduceCtorEq, not_false_eq_true]) ?_
      rintro ⟨pre, post, hl, -⟩
      exact absurd hl.symm (List.append_ne_nil_of_right_ne_nil pre (List.cons_ne_nil _ _))
  | cons k l ih =>
      -- Keys that are passed over go to the front of what precedes the result.
      have hskip (hpass : PassedOver pkt base k) (hnot : k.mkiId.length = 0 ∨ ¬ MkiAt pkt base k) :
          findMki pkt base l = .ok (keys, mkiSize) ↔
            ∃ pre post, k :: l = pre ++ keys :: post ∧ (∀ a ∈ pre, PassedOver pkt base a) ∧
              keys.mkiId.length ≠ 0 ∧ keys.mkiId.length ≤ base ∧ MkiAt pkt base keys ∧
              mkiSize = keys.mkiId.length := by
        rw [ih]
        constructor
        · rintro ⟨pre, post, rfl, hpre, hrest⟩
          refine ⟨k :: pre, post, rfl, ?_, hrest⟩
          intro a ha
          rcases List.mem_cons.mp ha with rfl | ha
          · exact hpass
          · exact hpre a ha
        · rintro ⟨pre, post, hl, hpre, hne, hfit, hat, hsize⟩
          cases pre with
          | nil =>
              obtain ⟨rfl, -⟩ := List.cons.inj hl
              exact absurd hat (hnot.resolve_left hne)
          | cons p pre =>
              obtain ⟨-, rfl⟩ := List.cons.inj hl
              exact ⟨pre, post, rfl, fun a ha => hpre a (List.mem_cons_of_mem _ ha), hne, hfit, hat,
                hsize⟩
      by_cases hempty : k.mkiId.length = 0
      · rw [findMki, if_pos hempty]
        exact hskip (fun hne => absurd hempty hne) (Or.inl hempty)
      rw [findMki_cons hn hbase hempty]
      by_cases hfit : base < k.mkiId.length
      · rw [if_pos hfit]
        refine iff_of_false (by simp only [reduceCtorEq, not_false_eq_true]) ?_
        rintro ⟨pre, post, hl, hpre, hne, hle, -, -⟩
        cases pre with
        | nil =>
            obtain ⟨rfl, -⟩ := List.cons.inj hl
            omega
        | cons p pre =>
            obtain ⟨rfl, -⟩ := List.cons.inj hl
            have := (hpre k List.mem_cons_self hempty).1
            omega
      rw [if_neg hfit]
      by_cases hfound : MkiAt pkt base k
      · rw [if_pos hfound, Except.ok.injEq, Prod.mk.injEq]
        constructor
        · rintro ⟨rfl, rfl⟩
          exact ⟨[], l, rfl, fun a ha => absurd ha List.not_mem_nil, hempty, by omega, hfound, rfl⟩
        · rintro ⟨pre, post, hl, hpre, -, -, -, hsize⟩
          cases pre with
          | nil =>
              obtain ⟨rfl, -⟩ := List.cons.inj hl
              exact ⟨rfl, hsize.symm⟩
          | cons p pre =>
              obtain ⟨rfl, -⟩ := List.cons.inj hl
              exact absurd hfound (hpre k List.mem_cons_self hempty).2
      · rw [if_neg hfound]
        exact hskip (fun _ => ⟨by omega, hfound⟩) (Or.inr hfound)

/-- Finding an MKI is a matter of suffixes of what precedes the tag. -/
theorem mkiAt_iff {front tail : Octets} (keys : SessionKeys C A) (hbase : base = front.length)
    (hfit : keys.mkiId.length ≤ base) :
    MkiAt (front ++ tail) base keys ↔
      keys.mkiId.length ≤ base - keys.mkiId.length ∧ keys.mkiId <:+ front := by
  have hslice : slice (front ++ tail) (base - keys.mkiId.length) keys.mkiId.length =
      front.drop (front.length - keys.mkiId.length) := by
    rw [slice, hbase, List.drop_append_of_le_length (Nat.sub_le _ _),
      List.take_append_of_le_length (by rw [List.length_drop]; omega)]
    refine List.take_of_length_le ?_
    rw [List.length_drop]
    omega
  rw [MkiAt, hslice, List.suffix_iff_eq_drop]
  exact and_congr_right fun _ => eq_comm

variable {data tail : Octets} {l : List (SessionKeys C A)} {index : Nat} {keys : SessionKeys C A}

/-- An MKI that stands out is found. -/
theorem findMki_of_standsOut (hn : (data ++ keys.mkiId ++ tail).length < 2 ^ 31)
    (hbase : base = data.length + keys.mkiId.length) (hget : l[index]? = some keys)
    (h : MkiStandsOut l index keys data.length) :
    findMki (data ++ keys.mkiId ++ tail) base l = .ok (keys, keys.mkiId.length) := by
  have hfront : base = (data ++ keys.mkiId).length := by rw [hbase, List.length_append]
  have hle : base ≤ (data ++ keys.mkiId ++ tail).length := by
    rw [hbase]
    simp only [List.length_append]
    omega
  have hroom := h.room
  have hne : keys.mkiId.length ≠ 0 := fun h0 => h.nonempty (List.eq_nil_of_length_eq_zero h0)
  refine (findMki_eq_ok hn hle).mpr
    ⟨l.take index, l.drop (index + 1), ?_, ?_, hne, by omega, ?_, rfl⟩
  · obtain ⟨hlt, heq⟩ := List.getElem?_eq_some_iff.mp hget
    rw [← heq, List.getElem_cons_drop, List.take_append_drop]
  · intro a ha hane
    have hearlier := h.earlier a ha (fun h0 => hane (by rw [h0, List.length_nil]))
    have hfit : a.mkiId.length ≤ base := by omega
    refine ⟨hfit, fun hat => ?_⟩
    -- Two suffixes of one string: one of them is a suffix of the other.
    have hsuffix := ((mkiAt_iff a hfront hfit).mp hat).2
    exact (List.suffix_or_suffix_of_suffix hsuffix (List.suffix_append data keys.mkiId)).elim
      hearlier.2.1 hearlier.2.2
  · exact (mkiAt_iff keys hfront (by omega)).mpr ⟨by omega, List.suffix_append _ _⟩

/-- If MKIs are distinct, and no earlier one is longer and ends with the
    sender's, then an MKI of the right length is only found if the sender's
    stands out. -/
theorem standsOut_of_findMki (hn : (data ++ keys.mkiId ++ tail).length < 2 ^ 31)
    (hbase : base = data.length + keys.mkiId.length) (hget : l[index]? = some keys)
    (hdistinct : l.Pairwise fun a b => a.mkiId = b.mkiId → a.mkiId = [])
    (hlonger : ∀ a ∈ l.take index, keys.mkiId <:+ a.mkiId → a.mkiId.length = keys.mkiId.length)
    {found : SessionKeys C A}
    (hfind : findMki (data ++ keys.mkiId ++ tail) base l = .ok (found, keys.mkiId.length)) :
    MkiStandsOut l index keys data.length := by
  have hfront : base = (data ++ keys.mkiId).length := by rw [hbase, List.length_append]
  have hle : base ≤ (data ++ keys.mkiId ++ tail).length := by
    rw [hbase]
    simp only [List.length_append]
    omega
  rcases (findMki_eq_ok hn hle).mp hfind with ⟨pre, post, hl, hpre, hne, hfit, hat, hsize⟩
  rcases (mkiAt_iff found hfront hfit).mp hat with ⟨hroom, hsuffix⟩
  have hmki : found.mkiId = keys.mkiId :=
    (List.suffix_of_suffix_length_le hsuffix (List.suffix_append data keys.mkiId)
      (Nat.le_of_eq hsize.symm)).eq_of_length hsize.symm
  have hnonempty : keys.mkiId ≠ [] := by
    intro h0
    rw [hmki, h0, List.length_nil] at hne
    exact hne rfl
  -- The keys that were found are the sender's, since no other keys have this MKI.
  obtain ⟨hlt, hkeys⟩ := List.getElem?_eq_some_iff.mp hget
  have hfoundlt : pre.length < l.length := by
    rw [hl, List.length_append, List.length_cons]
    omega
  have hfound : l[pre.length] = found := by
    simp only [hl, List.getElem_append_right (Nat.le_refl _), Nat.sub_self, List.getElem_cons_zero]
  have hindex : index = pre.length := by
    have hpair := List.pairwise_iff_getElem.mp hdistinct
    rcases Nat.lt_trichotomy index pre.length with hlt' | heq | hgt
    · exact absurd (hkeys ▸ hpair index pre.length hlt hfoundlt hlt'
        (by rw [hkeys, hfound, hmki])) hnonempty
    · exact heq
    · refine absurd (hpair pre.length index hfoundlt hlt hgt (by rw [hkeys, hfound, hmki])) ?_
      rw [hfound, hmki]
      exact hnonempty
  have htake : l.take index = pre := by rw [hindex, hl, List.take_left]
  refine ⟨hnonempty, by omega, ?_⟩
  rw [htake]
  intro a ha hane
  have hpassed := hpre a ha (fun h0 => hane (List.eq_nil_of_length_eq_zero h0))
  -- A suffix of the sender's MKI would have been found.
  have hnot : ¬ a.mkiId <:+ keys.mkiId := by
    intro hsuf
    have hlen := hsuf.length_le
    exact hpassed.2 ((mkiAt_iff a hfront hpassed.1).mpr
      ⟨by omega, hsuf.trans (List.suffix_append data keys.mkiId)⟩)
  refine ⟨by omega, hnot, fun hsuf => ?_⟩
  have heq := hsuf.eq_of_length (hlonger a (by rw [htake]; exact ha) hsuf).symm
  exact hnot (heq ▸ List.suffix_rfl)

end Search

end Srtp

end CryptoOpal

import CryptoOpal.Codec.Pgroups
import Mathlib.Data.Nat.Bitwise

/-!
# The Table of a Packet, Written and Read

A segment fits if its row and its offset take 15 bits, and its length takes
16. Then the table of a packet is that of `tableOf`: the numbers of each
segment, with the top bit of the offset set in every entry but the last. The
decoder reads these entries from the payload (`headerAt_table`), counts as many
as there are, and keeps the right and the bottom edge of all of them
(`scanTable_spec`).

## Main definitions

* `Segment.Fits`: The numbers of a segment fit into an entry.
* `tableOf`: The table of segments that fit.
* `rightEdge`, `bottomEdge`: The edges of segments, and of what was there.

## Theorems

* `closeTable_map_header`: The encoder writes this table.
* `spells_tableOf`: Each entry spells its segment.
* `headerAt_table`: The decoder reads what was written.
* `scanTable_spec`: The pass through the table.
* `edges_of_tilesFrame`: The edges it finds are those of the frame.
-/

namespace CryptoOpal

namespace Codec

open Lib (Octets slice bigEndian ofBigEndian length_bigEndian ofBigEndian_bigEndian)

/-- The numbers of a segment fit into an entry of a table. -/
structure Segment.Fits (s : Segment) : Prop where
  octets : s.octets < 2 ^ 16
  y : s.y < 2 ^ 15
  x : s.x < 2 ^ 15

/-- The table of segments that fit. -/
def tableOf : List Segment → List ScanLineHeader
  | [] => []
  | [s] => [⟨s.octets, s.y, s.x⟩]
  | s :: s' :: ss => ⟨s.octets, s.y, 2 ^ 15 + s.x⟩ :: tableOf (s' :: ss)

section Written

variable {s : Segment}

/-- The bit is added to an offset that fits. -/
theorem header_of_fits (h : s.Fits) : s.header = ⟨s.octets, s.y, 2 ^ 15 + s.x⟩ := by
  have hy : s.y % 2 ^ 16 = s.y := Nat.mod_eq_of_lt (Nat.lt_trans h.y (by decide))
  have hx : s.x % 2 ^ 16 = s.x := Nat.mod_eq_of_lt (Nat.lt_trans h.x (by decide))
  have hor : s.x ||| 0x8000 = 2 ^ 15 + s.x := by
    rw [Nat.or_comm]
    exact (Nat.two_pow_add_eq_or_of_lt h.x 1).symm
  rw [Segment.header, Nat.mod_eq_of_lt h.octets, hy, hx, hor]

/-- The bit is taken off the last entry. -/
theorem clear_header (h : s.Fits) :
    { s.header with offset := s.header.offset &&& 0x7fff } = ⟨s.octets, s.y, s.x⟩ := by
  have hand : (2 ^ 15 + s.x) &&& 0x7fff = s.x := by
    have hmask := Nat.and_two_pow_sub_one_eq_mod (2 ^ 15 + s.x) 15
    rw [Nat.add_mod_left, Nat.mod_eq_of_lt h.x] at hmask
    exact hmask
  simp only [header_of_fits h, hand]

/-- The encoder writes the table. -/
theorem closeTable_map_header (segments : List Segment) (hfits : ∀ s ∈ segments, s.Fits) :
    closeTable (segments.map Segment.header) = tableOf segments := by
  induction segments with
  | nil => rfl
  | cons s ss ih =>
      obtain ⟨hs, hss⟩ := List.forall_mem_cons.mp hfits
      cases ss with
      | nil => simp only [List.map_cons, List.map_nil, closeTable, clear_header hs, tableOf]
      | cons s' ss =>
          have hrest := ih hss
          simp only [List.map_cons] at hrest
          simp only [List.map_cons, closeTable, hrest, tableOf, header_of_fits hs]

theorem length_tableOf (segments : List Segment) : (tableOf segments).length = segments.length := by
  induction segments with
  | nil => rfl
  | cons s ss ih =>
      cases ss with
      | nil => rfl
      | cons s' ss =>
          rw [tableOf, List.length_cons, ih]
          rfl

/-- An entry spells its segment, with or without the bit. -/
theorem spells_of_fits (h : s.Fits) {offset : Nat} (hoffset : offset % 2 ^ 15 = s.x) :
    Spells ⟨s.octets, s.y, offset⟩ s :=
  ⟨rfl, Nat.mod_eq_of_lt h.y, hoffset⟩

theorem spells_tableOf (segments : List Segment) (hfits : ∀ s ∈ segments, s.Fits) :
    List.Forall₂ Spells (tableOf segments) segments := by
  induction segments with
  | nil => exact List.Forall₂.nil
  | cons s ss ih =>
      obtain ⟨hs, hss⟩ := List.forall_mem_cons.mp hfits
      cases ss with
      | nil => exact List.Forall₂.cons (spells_of_fits hs (Nat.mod_eq_of_lt hs.x)) List.Forall₂.nil
      | cons s' ss =>
          have hoffset : (2 ^ 15 + s.x) % 2 ^ 15 = s.x := by
            rw [Nat.add_mod_left, Nat.mod_eq_of_lt hs.x]
          exact List.Forall₂.cons (spells_of_fits hs hoffset) (ih hss)

end Written

section Read

/-- The three numbers of an entry take 16 bits each. -/
def ScanLineHeader.Fits (hdr : ScanLineHeader) : Prop :=
  hdr.length < 2 ^ 16 ∧ hdr.y < 2 ^ 16 ∧ hdr.offset < 2 ^ 16

theorem fits_tableOf (segments : List Segment) (hfits : ∀ s ∈ segments, s.Fits) :
    ∀ hdr ∈ tableOf segments, hdr.Fits := by
  induction segments with
  | nil =>
      intro hdr hmem
      exact absurd hmem List.not_mem_nil
  | cons s ss ih =>
      obtain ⟨hs, hss⟩ := List.forall_mem_cons.mp hfits
      obtain ⟨hoctets, hy, hx⟩ := hs
      intro hdr hmem
      cases ss with
      | nil =>
          rw [List.mem_singleton.mp hmem]
          exact ⟨hoctets, by simp only; omega, by simp only; omega⟩
      | cons s' ss =>
          rcases List.mem_cons.mp hmem with hmem | hmem
          · rw [hmem]
            exact ⟨hoctets, by simp only; omega, by simp only; omega⟩
          · exact ih hss hdr hmem

@[simp] theorem ScanLineHeader.length_octets (hdr : ScanLineHeader) : hdr.octets.length = 6 := by
  simp only [ScanLineHeader.octets, List.length_append, length_bigEndian]

theorem length_flatMap_octets (table : List ScanLineHeader) :
    (table.flatMap ScanLineHeader.octets).length = 6 * table.length := by
  induction table with
  | nil => rfl
  | cons hdr table ih =>
      rw [List.flatMap_cons, List.length_append, ScanLineHeader.length_octets, ih,
        List.length_cons]
      omega

/-- A number of 16 bits comes out of its octets. -/
theorem ofBigEndian_two {n : Nat} (h : n < 2 ^ 16) : ofBigEndian (bigEndian 2 n) = n := by
  rw [ofBigEndian_bigEndian]
  exact Nat.mod_eq_of_lt h

/-- An entry comes out of its octets, wherever they are. -/
theorem headerAt_octets {hdr : ScanLineHeader} (h : hdr.Fits) (before after : Octets) (l : Nat)
    (hbefore : before.length = 2 + l * scanLineHeaderSize) :
    headerAt (before ++ hdr.octets ++ after) l = hdr := by
  obtain ⟨length, y, offset⟩ := hdr
  obtain ⟨hlength, hy, hoffset⟩ := h
  have hpart : ∀ (a b c : Octets) (k : Nat), k = a.length → b.length = 2 →
      slice (a ++ b ++ c) k 2 = b := by
    intro a b c k hk hb
    rw [hk, ← hb]
    exact Lib.slice_middle a b c
  have h₁ : slice (before ++ ScanLineHeader.octets ⟨length, y, offset⟩ ++ after)
      (2 + l * scanLineHeaderSize) 2 = bigEndian 2 length := by
    have hsplit : before ++ ScanLineHeader.octets ⟨length, y, offset⟩ ++ after =
        before ++ bigEndian 2 length ++ (bigEndian 2 y ++ bigEndian 2 offset ++ after) := by
      simp only [ScanLineHeader.octets, List.append_assoc]
    rw [hsplit]
    exact hpart _ _ _ _ hbefore.symm (length_bigEndian 2 length)
  have h₂ : slice (before ++ ScanLineHeader.octets ⟨length, y, offset⟩ ++ after)
      (2 + l * scanLineHeaderSize + 2) 2 = bigEndian 2 y := by
    have hsplit : before ++ ScanLineHeader.octets ⟨length, y, offset⟩ ++ after =
        (before ++ bigEndian 2 length) ++ bigEndian 2 y ++ (bigEndian 2 offset ++ after) := by
      simp only [ScanLineHeader.octets, List.append_assoc]
    rw [hsplit]
    refine hpart _ _ _ _ ?_ (length_bigEndian 2 y)
    rw [List.length_append, hbefore, length_bigEndian]
  have h₃ : slice (before ++ ScanLineHeader.octets ⟨length, y, offset⟩ ++ after)
      (2 + l * scanLineHeaderSize + 4) 2 = bigEndian 2 offset := by
    have hsplit : before ++ ScanLineHeader.octets ⟨length, y, offset⟩ ++ after =
        (before ++ (bigEndian 2 length ++ bigEndian 2 y)) ++ bigEndian 2 offset ++ after := by
      simp only [ScanLineHeader.octets, List.append_assoc]
    rw [hsplit]
    refine hpart _ _ _ _ ?_ (length_bigEndian 2 offset)
    rw [List.length_append, hbefore, List.length_append, length_bigEndian, length_bigEndian]
  rw [headerAt, h₁, h₂, h₃, ofBigEndian_two hlength, ofBigEndian_two hy, ofBigEndian_two hoffset]

/-- The decoder reads the entry that was written. -/
theorem headerAt_table {extension data : Octets} (hextension : extension.length = 2)
    {done table : List ScanLineHeader} {hdr : ScanLineHeader} (h : hdr.Fits) :
    headerAt (extension ++ (done ++ hdr :: table).flatMap ScanLineHeader.octets ++ data)
      done.length = hdr := by
  have hsplit : extension ++ (done ++ hdr :: table).flatMap ScanLineHeader.octets ++ data =
      (extension ++ done.flatMap ScanLineHeader.octets) ++ hdr.octets ++
        (table.flatMap ScanLineHeader.octets ++ data) := by
    simp only [List.flatMap_append, List.flatMap_cons, List.append_assoc]
  rw [hsplit]
  refine headerAt_octets h _ _ _ ?_
  rw [List.length_append, hextension, length_flatMap_octets, scanLineHeaderSize, Nat.mul_comm]

/-- Each entry is read at its place. -/
theorem headerAt_getElem {extension data : Octets} (hextension : extension.length = 2)
    {table : List ScanLineHeader} (hfits : ∀ hdr ∈ table, hdr.Fits) (i : Nat)
    (hi : i < table.length) :
    headerAt (extension ++ table.flatMap ScanLineHeader.octets ++ data) i = table[i] := by
  have hsplit : table = table.take i ++ table[i] :: table.drop (i + 1) := by
    rw [List.cons_getElem_drop_succ, List.take_append_drop]
  have hlen : (table.take i).length = i := by
    rw [List.length_take]
    omega
  have hread : headerAt (extension ++
      (table.take i ++ table[i] :: table.drop (i + 1)).flatMap ScanLineHeader.octets ++ data)
      (table.take i).length = table[i] :=
    headerAt_table hextension (hfits table[i] (List.getElem_mem hi))
  rwa [← hsplit, hlen] at hread

/-- All the entries are read. -/
theorem map_headerAt {extension : Octets} (data : Octets) (hextension : extension.length = 2)
    (table : List ScanLineHeader) (hfits : ∀ hdr ∈ table, hdr.Fits) :
    (List.range table.length).map
      (headerAt (extension ++ table.flatMap ScanLineHeader.octets ++ data)) = table := by
  apply List.ext_getElem
  · rw [List.length_map, List.length_range]
  · intro i _ hi
    rw [List.getElem_map, List.getElem_range, headerAt_getElem hextension hfits i hi]

end Read

section Scan

/-- The right edge of segments, if it is further right than `edge`. -/
def rightEdge (edge : Nat) (segments : List Segment) : Nat :=
  segments.foldl (fun edge s => max edge (s.x + s.octets / pgroupSize * colsPerPgroup)) edge

/-- The bottom edge of segments, if it is further down than `edge`. -/
def bottomEdge (edge : Nat) (segments : List Segment) : Nat :=
  segments.foldl (fun edge s => max edge (s.y + rowsPerPgroup)) edge

/-- The comparison keeps the larger edge. -/
theorem ite_gt_eq_max (edge new : Nat) : (if new > edge then new else edge) = max edge new := by
  by_cases h : new > edge
  · rw [if_pos h]
    omega
  · rw [if_neg h]
    omega

/-- The pass goes through the rest of the table: every entry but the last says
    that another one follows, and there is data behind the last. -/
theorem scanTable_spec {payload : Octets} {rest : List Segment} (hne : rest ≠ [])
    (hfits : ∀ s ∈ rest, s.Fits) {l : Nat}
    (hread : ∀ i hdr, (tableOf rest)[i]? = some hdr → headerAt payload (l + i) = hdr)
    (hlen : rfc4175HeaderSize (l + rest.length) < payload.length) (rounds maxWidth maxHeight : Nat)
    (hrounds : rest.length ≤ rounds) :
    scanTable payload rounds l maxWidth maxHeight =
      (l + rest.length, rightEdge maxWidth rest, bottomEdge maxHeight rest) := by
  induction rest generalizing l rounds maxWidth maxHeight with
  | nil => exact absurd rfl hne
  | cons s ss ih =>
      obtain ⟨hs, hss⟩ := List.forall_mem_cons.mp hfits
      cases rounds with
      | zero => exact absurd hrounds (Nat.not_succ_le_zero _)
      | succ rounds =>
          simp only [List.length_cons] at hlen hrounds
          have hmore : rfc4175HeaderSize (l + 1) < payload.length := by
            simp only [rfc4175HeaderSize] at hlen ⊢
            omega
          have hy : s.y % 2 ^ 15 = s.y := Nat.mod_eq_of_lt hs.y
          cases ss with
          | nil =>
              -- The last entry has no bit.
              have hhdr := hread 0 ⟨s.octets, s.y, s.x⟩ rfl
              have hx : s.x % 2 ^ 15 = s.x := Nat.mod_eq_of_lt hs.x
              have hbit : ¬ s.x / 2 ^ 15 % 2 = 1 := by
                rw [Nat.div_eq_of_lt hs.x]
                decide
              rw [Nat.add_zero] at hhdr
              simp only [scanTable, if_pos hmore, hhdr, hx, hy, if_neg hbit, ite_gt_eq_max,
                List.length_singleton, rightEdge, bottomEdge, List.foldl_cons, List.foldl_nil]
          | cons s' ss =>
              have hhdr := hread 0 ⟨s.octets, s.y, 2 ^ 15 + s.x⟩ rfl
              have hx : (2 ^ 15 + s.x) % 2 ^ 15 = s.x := by
                rw [Nat.add_mod_left, Nat.mod_eq_of_lt hs.x]
              have hbit : (2 ^ 15 + s.x) / 2 ^ 15 % 2 = 1 := by
                rw [Nat.add_div_left s.x (by decide), Nat.div_eq_of_lt hs.x]
              rw [Nat.add_zero] at hhdr
              have hread' : ∀ i hdr, (tableOf (s' :: ss))[i]? = some hdr →
                  headerAt payload (l + 1 + i) = hdr := by
                intro i hdr hget
                have hnext := hread (i + 1) hdr hget
                rwa [Nat.add_comm i 1, ← Nat.add_assoc] at hnext
              have hrest := ih (List.cons_ne_nil s' ss) hss hread'
                (by rw [List.length_cons] at hlen ⊢; rwa [Nat.add_assoc, Nat.add_comm 1]) rounds
                (max maxWidth (s.x + s.octets / pgroupSize * colsPerPgroup))
                (max maxHeight (s.y + rowsPerPgroup)) (by rw [List.length_cons] at hrounds ⊢; omega)
              have hcount : l + 1 + (s' :: ss).length = l + (s :: s' :: ss).length := by
                simp only [List.length_cons]
                omega
              simp only [scanTable, if_pos hmore, hhdr, hx, hy, if_pos hbit, ite_gt_eq_max, hrest,
                hcount]
              rfl

/-- The largest of a number and those of some segments. -/
theorem foldl_max_le (f : Segment → Nat) {segments : List Segment} {edge bound : Nat}
    (hedge : edge ≤ bound) (hall : ∀ s ∈ segments, f s ≤ bound) :
    segments.foldl (fun edge s => max edge (f s)) edge ≤ bound := by
  induction segments generalizing edge with
  | nil => exact hedge
  | cons s ss ih =>
      obtain ⟨hs, hss⟩ := List.forall_mem_cons.mp hall
      exact ih (Nat.max_le.mpr ⟨hedge, hs⟩) hss

theorem le_foldl_max (f : Segment → Nat) (segments : List Segment) (edge : Nat) :
    edge ≤ segments.foldl (fun edge s => max edge (f s)) edge ∧
      ∀ s ∈ segments, f s ≤ segments.foldl (fun edge s => max edge (f s)) edge := by
  induction segments generalizing edge with
  | nil => exact ⟨Nat.le_refl edge, fun s hs => absurd hs List.not_mem_nil⟩
  | cons s ss ih =>
      obtain ⟨hedge, hrest⟩ := ih (max edge (f s))
      refine ⟨Nat.le_trans (Nat.le_max_left edge (f s)) hedge, ?_⟩
      intro t ht
      rcases List.mem_cons.mp ht with ht | ht
      · rw [ht]
        exact Nat.le_trans (Nat.le_max_right edge (f s)) hedge
      · exact hrest t ht

/-- The edges of segments that cover a frame are its edges. -/
theorem edges_of_tilesFrame {a b : Nat} (ha : 0 < a) (hb : 0 < b) {segments : List Segment}
    (htiles : TilesFrame (2 * a) b segments) :
    rightEdge 0 segments = 2 * a ∧ bottomEdge 0 segments = 2 * b := by
  have hinside := inside_of_tilesFrame htiles
  have hgroups : ∀ n, 6 * n / pgroupSize = n := fun n => Nat.mul_div_cancel_left n (by decide)
  -- The last pixel of the last row pair is in a segment that ends at both edges.
  obtain ⟨p, n, hmem, hlo, hhi⟩ := exists_of_tilesFrame htiles (show b - 1 < b by omega)
    (show 2 * a - 1 < 2 * a by omega)
  obtain ⟨p', q', n', heq, _, hp', _⟩ := hinside _ hmem
  obtain ⟨hn, _, hp⟩ := Segment.mk.injEq _ _ _ _ _ _ ▸ heq
  constructor
  · apply Nat.le_antisymm
    · refine foldl_max_le _ (Nat.zero_le _) ?_
      intro s hs
      obtain ⟨p, q, n, rfl, _, hp, _⟩ := hinside s hs
      simp only [hgroups, colsPerPgroup]
      omega
    · have hle := (le_foldl_max (fun s => s.x + s.octets / pgroupSize * colsPerPgroup)
        segments 0).2 _ hmem
      simp only [hgroups, colsPerPgroup] at hle
      refine Nat.le_trans ?_ hle
      omega
  · apply Nat.le_antisymm
    · refine foldl_max_le _ (Nat.zero_le _) ?_
      intro s hs
      obtain ⟨p, q, n, rfl, _, _, hq⟩ := hinside s hs
      simp only [rowsPerPgroup]
      omega
    · have hle := (le_foldl_max (fun s => s.y + rowsPerPgroup) segments 0).2 _ hmem
      simp only [rowsPerPgroup] at hle
      refine Nat.le_trans ?_ hle
      omega

end Scan

end Codec

end CryptoOpal

import CryptoOpal.Codec.ScanLines
import CryptoOpal.Lib.Fill
import Mathlib.Tactic.Ring

/-!
# Where the Groups of a Segment Lie

The encoder takes the octets of a segment out of the three planes, and the
decoder puts them into three planes, and both go to the same places in the
same order (`Segment.addresses`). So what was read with the one is written
with the other: reading is the planes at these places (`readPgroups_eq`), and
writing fills them (`writePgroups_eq`).

The places of a segment that is inside of the frame are inside of the planes
(`addresses_lt`), and the segments that cover a frame go to every place
(`mem_addresses_of_tilesFrame`): a place of the first plane is a row and a
column, and a place of one of the others is a group of two by two.

## Main definitions

* `pgroupAddresses`, `Segment.addresses`: The places, in order.
* `Segment.Inside`: A segment of groups that are inside of a frame.

## Theorems

* `mem_pgroupAddresses`: The places are four intervals.
* `readPgroups_eq`, `writePgroups_eq`: What the two loops do there.
* `addresses_lt`, `mem_addresses_of_tilesFrame`: They are those of the frame.
-/

namespace CryptoOpal

namespace Codec

open Lib (Octets fill fill_nil fill_cons length_fill)

/-- The places of this many groups, in the order of a packet. -/
def pgroupAddresses : Nat → Nat → Nat → Nat → Nat → List Nat
  | 0, _, _, _, _ => []
  | count + 1, yPlane0, yPlane1, cbPlane, crPlane =>
    yPlane0 :: (yPlane0 + 1) :: yPlane1 :: (yPlane1 + 1) :: cbPlane :: crPlane ::
      pgroupAddresses count (yPlane0 + 2) (yPlane1 + 2) (cbPlane + 1) (crPlane + 1)

/-- The places of the groups of a segment. -/
def Segment.addresses (width height : Nat) (s : Segment) : List Nat :=
  pgroupAddresses (s.octets / pgroupSize) (width * s.y + s.x) (width * s.y + s.x + width)
    (width * height + (width * s.y / 4 + s.x / 2))
    (width * height + width * height / 4 + (width * s.y / 4 + s.x / 2))

theorem length_pgroupAddresses (count yPlane0 yPlane1 cbPlane crPlane : Nat) :
    (pgroupAddresses count yPlane0 yPlane1 cbPlane crPlane).length = 6 * count := by
  induction count generalizing yPlane0 yPlane1 cbPlane crPlane with
  | zero => rfl
  | succ count ih =>
      simp only [pgroupAddresses, List.length_cons, ih]
      omega

theorem mem_pgroupAddresses {i count yPlane0 yPlane1 cbPlane crPlane : Nat} :
    i ∈ pgroupAddresses count yPlane0 yPlane1 cbPlane crPlane ↔
      yPlane0 ≤ i ∧ i < yPlane0 + 2 * count ∨ yPlane1 ≤ i ∧ i < yPlane1 + 2 * count ∨
        cbPlane ≤ i ∧ i < cbPlane + count ∨ crPlane ≤ i ∧ i < crPlane + count := by
  induction count generalizing yPlane0 yPlane1 cbPlane crPlane with
  | zero =>
      simp only [pgroupAddresses, List.not_mem_nil, false_iff]
      omega
  | succ count ih =>
      simp only [pgroupAddresses, List.mem_cons, ih]
      omega

/-- The octet of the planes at a place. -/
def octetAt (planes : Octets) (i : Nat) : UInt8 := planes.getD i 0

theorem getElem?_of_lt {planes : Octets} {i : Nat} (h : i < planes.length) :
    planes[i]? = some (octetAt planes i) := by
  rw [octetAt, List.getD_eq_getElem?_getD, List.getElem?_eq_getElem h, Option.getD_some]

/-- The encoder reads the places of the groups. -/
theorem readPgroups_eq (src : Octets) (count yPlane0 yPlane1 cbPlane crPlane : Nat)
    (hin : ∀ i ∈ pgroupAddresses count yPlane0 yPlane1 cbPlane crPlane, i < src.length) :
    readPgroups src count yPlane0 yPlane1 cbPlane crPlane =
      some ((pgroupAddresses count yPlane0 yPlane1 cbPlane crPlane).map (octetAt src)) := by
  induction count generalizing yPlane0 yPlane1 cbPlane crPlane with
  | zero => rfl
  | succ count ih =>
      simp only [pgroupAddresses, List.forall_mem_cons] at hin
      obtain ⟨h₁, h₂, h₃, h₄, h₅, h₆, hrest⟩ := hin
      simp only [readPgroups, getElem?_of_lt h₁, getElem?_of_lt h₂, getElem?_of_lt h₃,
        getElem?_of_lt h₄, getElem?_of_lt h₅, getElem?_of_lt h₆, ih _ _ _ _ hrest,
        Option.bind_eq_bind, Option.bind_some, Option.pure_def, pgroupAddresses, List.map_cons]

/-- The decoder writes to the places of the groups, and takes their octets off
    the data. -/
theorem writePgroups_eq (f : Nat → UInt8) (count yPlane0 yPlane1 cbPlane crPlane : Nat)
    (rest buffer : Octets)
    (hin : ∀ i ∈ pgroupAddresses count yPlane0 yPlane1 cbPlane crPlane, i < buffer.length) :
    writePgroups count yPlane0 yPlane1 cbPlane crPlane
        ((pgroupAddresses count yPlane0 yPlane1 cbPlane crPlane).map f ++ rest) buffer =
      some (rest, fill f (pgroupAddresses count yPlane0 yPlane1 cbPlane crPlane) buffer) := by
  induction count generalizing yPlane0 yPlane1 cbPlane crPlane buffer with
  | zero => rfl
  | succ count ih =>
      simp only [pgroupAddresses, List.forall_mem_cons] at hin
      obtain ⟨_, h₂, _, h₄, h₅, h₆, hrest⟩ := hin
      have hroom : yPlane0 + 1 < buffer.length ∧ yPlane1 + 1 < buffer.length ∧
          cbPlane < buffer.length ∧ crPlane < buffer.length := ⟨h₂, h₄, h₅, h₆⟩
      simp only [pgroupAddresses, List.map_cons, List.cons_append, writePgroups, if_pos hroom,
        fill_cons]
      apply ih
      intro i hi
      simp only [List.length_set]
      exact hrest i hi

/-- The entry of the table spells the segment. -/
structure Spells (hdr : ScanLineHeader) (s : Segment) : Prop where
  length : hdr.length = s.octets
  y : hdr.y % 2 ^ 15 = s.y
  offset : hdr.offset % 2 ^ 15 = s.x

section Segments

variable {width height : Nat} {hdr : ScanLineHeader} {s : Segment}

theorem readSegment_eq {src : Octets} (hspells : Spells hdr s)
    (hin : ∀ i ∈ s.addresses width height, i < src.length) :
    readSegment width height src hdr = some ((s.addresses width height).map (octetAt src)) := by
  simp only [readSegment, hspells.length, hspells.y, hspells.offset]
  exact readPgroups_eq src _ _ _ _ _ hin

theorem writeSegment_eq (f : Nat → UInt8) {rest buffer : Octets} (hspells : Spells hdr s)
    (heven : s.y % 2 = 0) (hin : ∀ i ∈ s.addresses width height, i < buffer.length) :
    writeSegment width height ((s.addresses width height).map f ++ rest, buffer) hdr =
      some (rest, fill f (s.addresses width height) buffer) := by
  simp only [writeSegment, hspells.length, hspells.y, hspells.offset, if_pos heven,
    Nat.mul_comm s.y width]
  exact writePgroups_eq f _ _ _ _ _ rest buffer hin

end Segments

section Tables

variable {width height : Nat} {table : List ScanLineHeader} {segments : List Segment}

/-- The groups of a whole table are read. -/
theorem mapM_readSegment {src : Octets} (hspells : List.Forall₂ Spells table segments)
    (hin : ∀ s ∈ segments, ∀ i ∈ s.addresses width height, i < src.length) :
    table.mapM (readSegment width height src) =
      some (segments.map fun s => (s.addresses width height).map (octetAt src)) := by
  induction hspells with
  | nil => rfl
  | @cons hdr s table segments hspells hrest ih =>
      obtain ⟨hs, hin⟩ := List.forall_mem_cons.mp hin
      rw [List.mapM_cons, readSegment_eq hspells hs, ih hin]
      rfl

/-- The groups of a whole table are written, one segment after another. -/
theorem foldlM_writeSegment (f : Nat → UInt8) {rest buffer : Octets}
    (hspells : List.Forall₂ Spells table segments) (heven : ∀ s ∈ segments, s.y % 2 = 0)
    (hin : ∀ s ∈ segments, ∀ i ∈ s.addresses width height, i < buffer.length) :
    table.foldlM (writeSegment width height)
        ((segments.flatMap (·.addresses width height)).map f ++ rest, buffer) =
      some (rest, fill f (segments.flatMap (·.addresses width height)) buffer) := by
  induction hspells generalizing buffer with
  | nil => rfl
  | @cons hdr s table segments hspells hrest ih =>
      obtain ⟨hs, hin⟩ := List.forall_mem_cons.mp hin
      obtain ⟨hy, heven⟩ := List.forall_mem_cons.mp heven
      have hin' : ∀ t ∈ segments, ∀ i ∈ t.addresses width height,
          i < (fill f (s.addresses width height) buffer).length := by
        intro t ht i hi
        rw [length_fill]
        exact hin t ht i hi
      rw [List.foldlM_cons, List.flatMap_cons, List.map_append, List.append_assoc,
        writeSegment_eq f hspells hy hs, Lib.fill_append]
      exact ih heven hin'

end Tables

section Geometry

variable {a b : Nat}

/-- The segment is made of whole groups, of a frame of `a` by `b` groups. -/
def Segment.Inside (a b : Nat) (s : Segment) : Prop :=
  ∃ p q n, s = ⟨6 * n, 2 * q, 2 * p⟩ ∧ 0 < n ∧ p + n ≤ a ∧ q < b

theorem inside_of_tilesRow {q : Nat} (hq : q < b) {x : Nat} {segments : List Segment}
    (htiles : TilesRow (2 * q) (2 * a) x segments) :
    ∀ p, x = 2 * p → ∀ s ∈ segments, s.Inside a b := by
  induction htiles with
  | done =>
      intro p hp s hs
      exact absurd hs List.not_mem_nil
  | @next x n segments hn hx rest ih =>
      intro p hp s hs
      rcases List.mem_cons.mp hs with hs | hs
      · exact ⟨p, q, n, by rw [hs, hp], hn, by omega, hq⟩
      · exact ih (p + n) (by omega) s hs

theorem inside_of_tilesFrame {segments : List Segment} (htiles : TilesFrame (2 * a) b segments) :
    ∀ s ∈ segments, s.Inside a b := by
  induction htiles with
  | none =>
      intro s hs
      exact absurd hs List.not_mem_nil
  | @row q above segments rows last ih =>
      intro s hs
      rcases List.mem_append.mp hs with hs | hs
      · obtain ⟨p, q', n, heq, hn, hp, hq⟩ := ih s hs
        exact ⟨p, q', n, heq, hn, hp, by omega⟩
      · exact inside_of_tilesRow (Nat.lt_succ_self q) last 0 rfl s hs

/-- The places of a segment, in groups. -/
theorem addresses_eq (a b p q n : Nat) :
    Segment.addresses (2 * a) (2 * b) ⟨6 * n, 2 * q, 2 * p⟩ =
      pgroupAddresses n (4 * (a * q) + 2 * p) (4 * (a * q) + 2 * p + 2 * a)
        (4 * (a * b) + (a * q + p)) (5 * (a * b) + (a * q + p)) := by
  have hrow : 2 * a * (2 * q) = 4 * (a * q) := by ring
  have hframe : 2 * a * (2 * b) = 4 * (a * b) := by ring
  have hcount : 6 * n / pgroupSize = n := Nat.mul_div_cancel_left n (by decide)
  have hquarter : 4 * (a * q) / 4 = a * q := Nat.mul_div_cancel_left _ (by decide)
  have hplane : 4 * (a * b) / 4 = a * b := Nat.mul_div_cancel_left _ (by decide)
  have hhalf : 2 * p / 2 = p := Nat.mul_div_cancel_left p (by decide)
  have hsum : 4 * (a * b) + a * b = 5 * (a * b) := by ring
  simp only [Segment.addresses, hrow, hframe, hcount, hquarter, hplane, hhalf, hsum]

/-- A segment that is inside of the frame has its places in the planes. -/
theorem addresses_lt {s : Segment} (hs : s.Inside a b) :
    ∀ i ∈ s.addresses (2 * a) (2 * b), i < 6 * (a * b) := by
  obtain ⟨p, q, n, rfl, hn, hp, hq⟩ := hs
  intro i hi
  have hrows : a * q + a ≤ a * b := by
    rw [← Nat.mul_succ]
    exact Nat.mul_le_mul_left a hq
  rw [addresses_eq] at hi
  have hmem := mem_pgroupAddresses.mp hi
  omega

/-- A column of a row pair that is covered is in a segment. -/
theorem exists_of_tilesRow {q : Nat} {x : Nat} {segments : List Segment}
    (htiles : TilesRow (2 * q) (2 * a) x segments) :
    ∀ p, x = 2 * p → ∀ c, x ≤ c → c < 2 * a →
      ∃ p' n, ⟨6 * n, 2 * q, 2 * p'⟩ ∈ segments ∧ 2 * p' ≤ c ∧ c < 2 * p' + 2 * n := by
  induction htiles with
  | done =>
      intro p hp c hle hlt
      omega
  | @next x n segments hn hx rest ih =>
      intro p hp c hle hlt
      by_cases hc : c < x + 2 * n
      · refine ⟨p, n, ?_, by omega, by omega⟩
        rw [hp]
        exact List.mem_cons_self
      · obtain ⟨p', n', hmem, hlo, hhi⟩ := ih (p + n) (by omega) c (by omega) hlt
        exact ⟨p', n', List.mem_cons_of_mem _ hmem, hlo, hhi⟩

/-- A pixel of a frame that is covered is in a segment. -/
theorem exists_of_tilesFrame {rows : Nat} {segments : List Segment}
    (htiles : TilesFrame (2 * a) rows segments) {q c : Nat} (hq : q < rows) (hc : c < 2 * a) :
    ∃ p n, ⟨6 * n, 2 * q, 2 * p⟩ ∈ segments ∧ 2 * p ≤ c ∧ c < 2 * p + 2 * n := by
  induction htiles with
  | none => exact absurd hq (Nat.not_lt_zero q)
  | @row q' above segments rows last ih =>
      by_cases hlast : q = q'
      · subst hlast
        obtain ⟨p, n, hmem, hlo, hhi⟩ := exists_of_tilesRow last 0 rfl c (Nat.zero_le c) hc
        exact ⟨p, n, List.mem_append_right above hmem, hlo, hhi⟩
      · obtain ⟨p, n, hmem, hlo, hhi⟩ := ih (by omega)
        exact ⟨p, n, List.mem_append_left segments hmem, hlo, hhi⟩

/-- A number below `a * b` is one of `b` rows of `a`. -/
theorem exists_row_column {i : Nat} (hi : i < a * b) :
    ∃ q c, i = a * q + c ∧ q < b ∧ c < a := by
  have ha : 0 < a := Nat.pos_of_mul_pos_right (Nat.zero_lt_of_lt hi)
  exact ⟨i / a, i % a, (Nat.div_add_mod i a).symm, Nat.div_lt_of_lt_mul hi, Nat.mod_lt i ha⟩

/-- The segments of a frame that is covered go to every place of the planes. -/
theorem mem_addresses_of_tilesFrame {segments : List Segment}
    (htiles : TilesFrame (2 * a) b segments) {i : Nat} (hi : i < 6 * (a * b)) :
    ∃ s ∈ segments, i ∈ s.addresses (2 * a) (2 * b) := by
  by_cases hluma : i < 4 * (a * b)
  · -- A row pair has four octets for each of its groups.
    have hrows : i < 4 * a * b := by
      rw [Nat.mul_assoc]
      exact hluma
    obtain ⟨q, r, hi, hq, hr⟩ := exists_row_column hrows
    have hrow : 4 * a * q = 4 * (a * q) := Nat.mul_assoc 4 a q
    by_cases hfirst : r < 2 * a
    · obtain ⟨p, n, hmem, hlo, hhi⟩ := exists_of_tilesFrame htiles hq hfirst
      refine ⟨_, hmem, ?_⟩
      rw [addresses_eq, mem_pgroupAddresses]
      omega
    · obtain ⟨p, n, hmem, hlo, hhi⟩ := exists_of_tilesFrame htiles hq
        (show r - 2 * a < 2 * a by omega)
      refine ⟨_, hmem, ?_⟩
      rw [addresses_eq, mem_pgroupAddresses]
      omega
  · by_cases hblue : i < 5 * (a * b)
    · obtain ⟨q, c, hi', hq, hc⟩ := exists_row_column (show i - 4 * (a * b) < a * b by omega)
      obtain ⟨p, n, hmem, hlo, hhi⟩ := exists_of_tilesFrame htiles hq
        (show 2 * c < 2 * a by omega)
      refine ⟨_, hmem, ?_⟩
      rw [addresses_eq, mem_pgroupAddresses]
      omega
    · obtain ⟨q, c, hi', hq, hc⟩ := exists_row_column (show i - 5 * (a * b) < a * b by omega)
      obtain ⟨p, n, hmem, hlo, hhi⟩ := exists_of_tilesFrame htiles hq
        (show 2 * c < 2 * a by omega)
      refine ⟨_, hmem, ?_⟩
      rw [addresses_eq, mem_pgroupAddresses]
      omega

end Geometry

end Codec

end CryptoOpal

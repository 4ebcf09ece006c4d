import CryptoOpal.Codec.Rfc4175
import Mathlib.Data.List.Basic
import Mathlib.Algebra.BigOperators.Group.List.Basic
import Mathlib.Algebra.Group.Nat.Defs

/-!
# How a Frame Is Cut Up

What the encoder puts into its tables. The segments of a row pair lie one
behind another from the left edge to the right (`TilesRow`), the row pairs
follow each other from the top (`TilesFrame`), and a packet has at least one
segment. A packet is as long as its table and its groups, and the packets are
numbered one after another.

A round of the loop for a row pair starts a new packet or adds a segment to
the current one. `Encoding.Ok` is what both keep. A new packet always has room
for a group, so the loop takes two rounds for each group at most, and it ends.

## Main definitions

* `TilesRow`, `TilesFrame`: Segments that cover a row pair, or row pairs.
* `sketches`: Packets that are numbered one after another.
* `Encoding.Ok`: What holds between two rounds.

## Theorems

* `ok_finishOutputFrame`, `ok_addNewDstFrame`, `ok_addSegment`: The steps.
* `encodeScanLineSegment_spec`: The loop for a row pair.
* `encodeFullFrame_spec`: A whole frame.
-/

namespace CryptoOpal

namespace Codec

/-- The segments cover the row pair at `y` from `x` to `endX`. -/
inductive TilesRow (y endX : Nat) : Nat → List Segment → Prop
  | done : TilesRow y endX endX []
  | next {x n : Nat} {segments : List Segment} (hn : 0 < n) (hx : x + 2 * n ≤ endX)
      (rest : TilesRow y endX (x + 2 * n) segments) :
      TilesRow y endX x (⟨6 * n, y, x⟩ :: segments)

/-- The segments cover this many row pairs from the top. -/
inductive TilesFrame (width : Nat) : Nat → List Segment → Prop
  | none : TilesFrame width 0 []
  | row {q : Nat} {above segments : List Segment} (rows : TilesFrame width q above)
      (last : TilesRow (2 * q) width 0 segments) : TilesFrame width (q + 1) (above ++ segments)

/-- The octets that segments take in a packet, with their headers. -/
def sizeOf (segments : List Segment) : Nat := (segments.map fun s => scanLineHeaderSize + s.octets).sum

/-- The output frame with these segments and this number. -/
def sketchOf (number : Nat) (segments : List Segment) : Sketch :=
  ⟨number % 2 ^ 16, number / 2 ^ 16 % 2 ^ 16, 2 + sizeOf segments, segments⟩

/-- Output frames with numbers that follow each other. -/
def sketches : Nat → List (List Segment) → List Sketch
  | _, [] => []
  | number, part :: parts => sketchOf number part :: sketches (number + 1) parts

theorem sizeOf_append (ss ts : List Segment) : sizeOf (ss ++ ts) = sizeOf ss + sizeOf ts := by
  simp only [sizeOf, List.map_append, List.sum_append]

theorem sketches_append (number : Nat) (parts parts' : List (List Segment)) :
    sketches number (parts ++ parts') =
      sketches number parts ++ sketches (number + parts.length) parts' := by
  induction parts generalizing number with
  | nil => rfl
  | cons part parts ih =>
      simp only [List.cons_append, sketches, ih, List.length_cons, Nat.add_assoc, Nat.add_comm 1]

/-- All the segments so far. -/
def Encoding.segments (e : Encoding) (parts : List (List Segment)) : List Segment :=
  parts.flatten ++ e.current.getD []

/-- The finished frames have these parts, the size is that of the current one,
    and its number is the next. -/
structure Encoding.Ok (number : Nat) (parts : List (List Segment)) (e : Encoding) : Prop where
  finished : e.finished = sketches number parts
  nonempty : ∀ part ∈ parts, part ≠ []
  size : ∀ ss, e.current = some ss → e.packetSize = minHeaderSize + (2 + sizeOf ss)
  next : e.extendedSequenceNumber % 2 ^ 32 = (number + parts.length) % 2 ^ 32

section Steps

variable {number : Nat} {parts : List (List Segment)} {e : Encoding}

/-- The current frame becomes the last part. -/
theorem ok_finishOutputFrame (h : e.Ok number parts) :
    ∃ parts', (finishOutputFrame e).Ok number parts' ∧ parts'.flatten = e.segments parts := by
  obtain ⟨finished, current, packetSize, extendedSequenceNumber⟩ := e
  cases current with
  | none => exact ⟨parts, h, by simp only [Encoding.segments, Option.getD_none, List.append_nil]⟩
  | some segments =>
      cases segments with
      | nil => exact ⟨parts, h, by simp only [Encoding.segments, Option.getD_some, List.append_nil]⟩
      | cons s ss =>
          have hsize := h.size (s :: ss) rfl
          have hnext := h.next
          have hfinished := h.finished
          simp only at hsize hnext hfinished
          refine ⟨parts ++ [s :: ss], ⟨?_, ?_, ?_, ?_⟩, ?_⟩
          · have hlow : extendedSequenceNumber % 2 ^ 16 = (number + parts.length) % 2 ^ 16 := by omega
            have hhigh : extendedSequenceNumber / 2 ^ 16 % 2 ^ 16 =
                (number + parts.length) / 2 ^ 16 % 2 ^ 16 := by
              omega
            have hlen : packetSize - minHeaderSize = 2 + sizeOf (s :: ss) := by omega
            simp only [finishOutputFrame, sketches_append, sketches, sketchOf, hfinished, hlow, hhigh,
              hlen]
          · intro part hpart
            rcases List.mem_append.mp hpart with hpart | hpart
            · exact h.nonempty part hpart
            · rw [List.mem_singleton.mp hpart]
              exact List.cons_ne_nil s ss
          · exact h.size
          · simp only [finishOutputFrame, List.length_append, List.length_singleton]
            omega
          · simp only [Encoding.segments, List.flatten_append, List.flatten_singleton,
              Option.getD_some]

/-- A new frame has no segments. -/
theorem ok_addNewDstFrame (h : e.Ok number parts) :
    ∃ parts', (addNewDstFrame e).Ok number parts' ∧
      (addNewDstFrame e).segments parts' = e.segments parts := by
  obtain ⟨parts', hok, hflat⟩ := ok_finishOutputFrame h
  refine ⟨parts', ⟨hok.finished, hok.nonempty, ?_, hok.next⟩, ?_⟩
  · intro ss hss
    simp only [addNewDstFrame, Option.some.injEq] at hss
    subst hss
    rfl
  · simp only [Encoding.segments, addNewDstFrame, Option.getD_some, List.append_nil, hflat]

/-- The encoding with one more segment in its current frame. -/
def addSegment (e : Encoding) (s : Segment) : Encoding :=
  { e with
    current := e.current.map (· ++ [s])
    packetSize := e.packetSize + (scanLineHeaderSize + s.octets) }

theorem ok_addSegment (h : e.Ok number parts) {ss : List Segment} (hcurrent : e.current = some ss)
    (s : Segment) : (addSegment e s).Ok number parts ∧
      (addSegment e s).segments parts = e.segments parts ++ [s] := by
  refine ⟨⟨h.finished, h.nonempty, ?_, h.next⟩, ?_⟩
  · intro ts hts
    simp only [addSegment, hcurrent, Option.map_some, Option.some.injEq] at hts
    subst hts
    have hone : sizeOf [s] = scanLineHeaderSize + s.octets := by
      simp only [sizeOf, List.map_cons, List.map_nil, List.sum_singleton]
    have hsize := h.size ss hcurrent
    simp only [addSegment, sizeOf_append, hone]
    omega
  · simp only [Encoding.segments, addSegment, hcurrent, Option.map_some, Option.getD_some,
      List.append_assoc]

end Steps

section Loop

variable {maximumPacketSize y endX : Nat}

/-- There is a current frame, and it takes another group. -/
def HasRoom (maximumPacketSize : Nat) (e : Encoding) : Prop :=
  ∃ ss, e.current = some ss ∧ scanLineHeaderSize + pgroupSize ≤ maximumPacketSize - e.packetSize

theorem hasRoom_addNewDstFrame (hmax : 26 ≤ maximumPacketSize) (e : Encoding) :
    HasRoom maximumPacketSize (addNewDstFrame e) := by
  refine ⟨[], rfl, ?_⟩
  simp only [addNewDstFrame, scanLineHeaderSize, pgroupSize, minHeaderSize]
  omega

theorem encodeScanLineSegment_done (rounds : Nat) (e : Encoding) :
    encodeScanLineSegment maximumPacketSize y endX (rounds + 1) endX e = some e := by
  rw [encodeScanLineSegment, if_neg (Nat.lt_irrefl endX)]

theorem encodeScanLineSegment_full {x : Nat} {e : Encoding} (hx : x < endX)
    (hroom : ¬ HasRoom maximumPacketSize e) (rounds : Nat) :
    encodeScanLineSegment maximumPacketSize y endX (rounds + 1) x e =
      encodeScanLineSegment maximumPacketSize y endX rounds x (addNewDstFrame e) := by
  have hfull : e.current.isNone ∨
      maximumPacketSize - e.packetSize < scanLineHeaderSize + pgroupSize := by
    cases hcurrent : e.current with
    | none => exact Or.inl rfl
    | some ss =>
        refine Or.inr (Nat.lt_of_not_le ?_)
        intro hle
        exact hroom ⟨ss, hcurrent, hle⟩
  simp only [encodeScanLineSegment, if_pos hx, if_pos hfull]

/-- With room, the round adds groups, at least one and not past the end. -/
theorem encodeScanLineSegment_add {x g : Nat} {e : Encoding} (hg : endX = x + 2 * (g + 1))
    (hroom : HasRoom maximumPacketSize e) (rounds : Nat) :
    ∃ n, 0 < n ∧ x + 2 * n ≤ endX ∧
      encodeScanLineSegment maximumPacketSize y endX (rounds + 1) x e =
        encodeScanLineSegment maximumPacketSize y endX rounds (x + 2 * n)
          (addSegment e ⟨6 * n, y, x⟩) := by
  obtain ⟨ss, hcurrent, hle⟩ := hroom
  have hx : x < endX := by omega
  have hopen : ¬ (e.current.isNone ∨
      maximumPacketSize - e.packetSize < scanLineHeaderSize + pgroupSize) := by
    simp only [hcurrent, Option.isNone_some, Bool.false_eq_true, false_or]
    omega
  have hgroups : (endX - x) / colsPerPgroup = g + 1 := by
    simp only [colsPerPgroup]
    omega
  simp only [scanLineHeaderSize, pgroupSize] at hle
  have hone : 1 ≤ (maximumPacketSize - e.packetSize - 6) / 6 := by omega
  simp only [encodeScanLineSegment, if_pos hx, if_neg hopen, hgroups]
  simp only [scanLineHeaderSize, pgroupSize, colsPerPgroup, Nat.mul_comm _ 6, Nat.mul_comm _ 2]
  by_cases hfew : (maximumPacketSize - e.packetSize - 6) / 6 ≤ g + 1
  · -- The frame gets full.
    refine ⟨(maximumPacketSize - e.packetSize - 6) / 6, hone, by omega, ?_⟩
    simp only [if_pos hfew, addSegment, scanLineHeaderSize]
  · -- The rest of the row pair fits.
    refine ⟨g + 1, by omega, by omega, ?_⟩
    have hrest : endX - x = 2 * (g + 1) := by omega
    simp only [if_neg hfew, hrest, addSegment, scanLineHeaderSize]

/-- The loop for a row pair ends, and what it adds covers the rest of the row
    pair. By induction on the rounds: a frame without room costs one of them,
    and a segment is at least two pixels wide. -/
theorem encodeScanLineSegment_spec (hmax : 26 ≤ maximumPacketSize) {number : Nat} (rounds : Nat) :
    ∀ {x g : Nat} {e : Encoding} {parts : List (List Segment)}, endX = x + 2 * g →
      e.Ok number parts →
      (endX - x < rounds ∨ HasRoom maximumPacketSize e ∧ 0 < g ∧ endX - x ≤ rounds) →
      ∃ e' parts' ts, encodeScanLineSegment maximumPacketSize y endX rounds x e = some e' ∧
        e'.Ok number parts' ∧ e'.segments parts' = e.segments parts ++ ts ∧
        TilesRow y endX x ts := by
  induction rounds with
  | zero =>
      intro x g e parts hg hok hrounds
      omega
  | succ rounds ih =>
      intro x g e parts hg hok hrounds
      cases g with
      | zero =>
          have hx : x = endX := by omega
          subst hx
          refine ⟨e, parts, [], encodeScanLineSegment_done rounds e, hok, ?_, TilesRow.done⟩
          rw [List.append_nil]
      | succ g =>
          by_cases hroom : HasRoom maximumPacketSize e
          · obtain ⟨ss, hcurrent, _⟩ := id hroom
            obtain ⟨n, hn, hend, hstep⟩ :=
              encodeScanLineSegment_add (y := y) hg hroom rounds
            obtain ⟨hadded, hsegments⟩ := ok_addSegment hok hcurrent ⟨6 * n, y, x⟩
            have hleft : endX = x + 2 * n + 2 * (g + 1 - n) := by omega
            have hless : endX - (x + 2 * n) < rounds := by omega
            obtain ⟨e', parts', ts, hrun, hok', hsegments', htiles⟩ :=
              ih hleft hadded (Or.inl hless)
            refine ⟨e', parts', ⟨6 * n, y, x⟩ :: ts, hstep.trans hrun, hok', ?_,
              TilesRow.next hn hend htiles⟩
            rw [hsegments', hsegments, List.append_assoc, List.singleton_append]
          · have hx : x < endX := by omega
            have hrest : endX - x ≤ rounds := by
              rcases hrounds with h | h
              · omega
              · exact absurd h.1 hroom
            obtain ⟨parts₁, hok₁, hsegments₁⟩ := ok_addNewDstFrame hok
            obtain ⟨e', parts', ts, hrun, hok', hsegments', htiles⟩ :=
              ih hg hok₁ (Or.inr ⟨hasRoom_addNewDstFrame hmax e, Nat.succ_pos g, hrest⟩)
            refine ⟨e', parts', ts, (encodeScanLineSegment_full hx hroom rounds).trans hrun, hok',
              ?_, htiles⟩
            rw [hsegments', hsegments₁]

/-- The row pairs so far are covered, after any number of them. -/
theorem foldlM_encodeScanLineSegment (hmax : 26 ≤ maximumPacketSize) {width a number : Nat}
    (hwidth : width = 2 * a) {e : Encoding} (hok : e.Ok number []) (hnone : e.current = none)
    (q : Nat) :
    ∃ e' parts, (List.range q).foldlM (fun e i =>
        encodeScanLineSegment maximumPacketSize (rowsPerPgroup * i) width (width + 1) 0 e) e =
          some e' ∧
      e'.Ok number parts ∧ TilesFrame width q (e'.segments parts) := by
  induction q with
  | zero =>
      refine ⟨e, [], rfl, hok, ?_⟩
      simp only [Encoding.segments, hnone, List.flatten_nil, Option.getD_none, List.append_nil]
      exact TilesFrame.none
  | succ q ih =>
      obtain ⟨e₁, parts₁, hrun₁, hok₁, htiles₁⟩ := ih
      have hzero : width = 0 + 2 * a := by omega
      obtain ⟨e', parts', ts, hrun, hok', hsegments, htiles⟩ :=
        encodeScanLineSegment_spec hmax (y := rowsPerPgroup * q) (width + 1) hzero hok₁
          (Or.inl (by omega))
      refine ⟨e', parts', ?_, hok', ?_⟩
      · rw [List.range_succ, List.foldlM_append, hrun₁]
        simp only [Option.bind_eq_bind, Option.bind_some, List.foldlM_cons, hrun, List.foldlM_nil,
          Option.pure_def]
      · rw [hsegments]
        exact TilesFrame.row htiles₁ htiles

/-- A frame of even size is cut up into packets that cover it. -/
theorem encodeFullFrame_spec (hmax : 26 ≤ maximumPacketSize) {width height a b : Nat}
    (hwidth : width = 2 * a) (hheight : height = 2 * b) (number : Nat) :
    ∃ e parts, encodeFullFrame maximumPacketSize width height ⟨[], none, 0, number⟩ = some e ∧
      (finishOutputFrame e).Ok number parts ∧ TilesFrame width b parts.flatten := by
  have hok : Encoding.Ok number [] ⟨[], none, 0, number⟩ := by
    refine ⟨rfl, ?_, ?_, rfl⟩
    · intro part hpart
      exact absurd hpart List.not_mem_nil
    · intro ss hss
      exact absurd hss (Option.some_ne_none ss).symm
  have hrows : (height + 1) / rowsPerPgroup = b := by
    simp only [rowsPerPgroup]
    omega
  obtain ⟨e, parts₁, hrun, hok₁, htiles⟩ :=
    foldlM_encodeScanLineSegment hmax hwidth hok rfl b
  obtain ⟨parts, hdone, hflat⟩ := ok_finishOutputFrame hok₁
  refine ⟨e, parts, ?_, hdone, ?_⟩
  · rw [encodeFullFrame, hrows]
    exact hrun
  · rw [hflat]
    exact htiles

end Loop

end Codec

end CryptoOpal

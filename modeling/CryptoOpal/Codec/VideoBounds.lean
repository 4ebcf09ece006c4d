import CryptoOpal.Codec.Rfc4175

/-!
# The Buffers of the Video Decoders

Two decoders take uncompressed video out of packets: one of YCbCr, in groups
of two by two pixels, and one of RGB. `OpalRFC4175Decoder` collects the packets
of a frame and finds its size, and they share that. It looks for the table of a
packet inside of the payload. But what is behind the table is not measured:
the segments can have more octets than there are.

The size of the frame is that of the segments seen, so that they lie in it. It
is not taken over when a packet is missing, and then the frame is as large as
the one before, wherever the segments lie.

Here an access outside of a packet or a frame ends with `none`, and so does a
frame whose size is no `int`.

## Main definitions

* `Sampling`: The two decoders, and where they differ.
* `Sampling.convertFrames`: `OpalRFC4175Decoder::ConvertFrames` of both.
* `Sampling.dataSize`, `Sampling.Lies`: The octets that a segment takes, and
  that it lies in the frame.
* `Sampling.AllFit`: The condition on the packets that are received.

## Theorems

* `writeEntry_isSome`, `writeSource_isSome`: One entry, and one packet.
* `scanTable_spec`: The table is looked for in the payload.
* `convertFrames_isSome`: One call.
* `lies_of_edges`: The segments of a complete frame lie in it.
* `feed_ycbcr420`: The decoder of YCbCr is the one of the round trip.
* `decoder_inside`: All packets.
-/

namespace CryptoOpal

namespace Codec

open Lib (Octets)

/-- The samplings that are decoded: `Opal_RFC4175YCbCr420_to_YUV420P` and
    `Opal_RFC4175RGB_to_RGB24`. -/
inductive Sampling where
  | ycbcr420
  | rgb
  deriving DecidableEq

/-- An entry of the table, if all of it is in the payload. -/
def readHeader (payload : Octets) (l : Nat) : Option ScanLineHeader :=
  if rfc4175HeaderSize (l + 1) ≤ payload.length then some (headerAt payload l) else none

/-- `memcpy` of this many octets of the data, to a place in the buffer. -/
def copyRow (count place : Nat) (state : Octets × Octets) : Option (Octets × Octets) :=
  if count ≤ state.1.length ∧ (0 < count → place + count ≤ state.2.length) then
    some (state.1.drop count,
      state.2.take place ++ state.1.take count ++ state.2.drop (place + count))
  else none

namespace Sampling

/-- `GetPgroupSize`. -/
def pgroupSize : Sampling → Nat
  | ycbcr420 => Codec.pgroupSize
  | rgb => 3

/-- `GetColsPerPgroup`. -/
def colsPerPgroup : Sampling → Nat
  | ycbcr420 => Codec.colsPerPgroup
  | rgb => 1

/-- `GetRowsPerPgroup`. -/
def rowsPerPgroup : Sampling → Nat
  | ycbcr420 => Codec.rowsPerPgroup
  | rgb => 1

/-- `PixelsToBytes`, if its product is an `int`. -/
def pixelsToBytes : Sampling → Nat → Option Nat
  | ycbcr420, pixels => Codec.pixelsToBytes pixels
  | rgb, pixels => if pixels * 3 < 2147483648 then some (pixels * 3) else none

/-- The round of `DecodeFrames` for one entry of a table. -/
def writeEntry (t : Sampling) (width height : Nat) (state : Octets × Octets)
    (hdr : ScanLineHeader) : Option (Octets × Octets) :=
  match t with
  | ycbcr420 => writeSegment width height state hdr
  | rgb =>
    copyRow (hdr.length / 3 * 3) ((hdr.y % 32768 * width + hdr.offset % 32768) * 3) state

/-- The round of `DecodeFrames` for one packet. -/
def writeSource (t : Sampling) (width height : Nat) (buffer : Octets) (source : Octets × Nat) :
    Option Octets := do
  let table ← (List.range source.2).mapM (readHeader source.1)
  let done ← table.foldlM (t.writeEntry width height)
    (source.1.drop (rfc4175HeaderSize source.2), buffer)
  return done.2

/-- `DecodeFrames`. -/
def decodeFrames (t : Sampling) (d : VideoDecoder) : Option (List DecodedFrame) :=
  if d.inputFrames = [] then some []
  else do
    let size ← t.pixelsToBytes (d.frameWidth * d.frameHeight)
    let planes ← (d.inputFrames.zip d.scanlineCounts).foldlM
      (t.writeSource d.frameWidth d.frameHeight) (List.replicate size 0)
    return [⟨d.frameWidth, d.frameHeight, planes⟩]

/-- The pass through the table of a packet: the number of its entries, and the size of the frame so
far. -/
def scanTable (t : Sampling) (payload : Octets) :
    Nat → Nat → Nat → Nat → Option (Nat × Nat × Nat)
  | 0, lineCount, maxWidth, maxHeight => some (lineCount, maxWidth, maxHeight)
  | rounds + 1, lineCount, maxWidth, maxHeight =>
    if rfc4175HeaderSize (lineCount + 1) < payload.length then do
      let hdr ← readHeader payload lineCount
      -- The frame so far.
      let right := hdr.offset % 32768 + hdr.length / t.pgroupSize * t.colsPerPgroup
      let bottom := hdr.y % 32768 + t.rowsPerPgroup
      if hdr.offset / 32768 % 2 = 1 then
        t.scanTable payload rounds (lineCount + 1) (max maxWidth right) (max maxHeight bottom)
      else return (lineCount + 1, max maxWidth right, max maxHeight bottom)
    else some (lineCount, maxWidth, maxHeight)

end Sampling

/-- What `ConvertFrames` makes of a packet before it collects it. -/
inductive Sorted where
  | refused
  | ignored
  /-- The packet goes to the frame that is being collected. -/
  | taken (d : VideoDecoder)
  /-- The marker of the frame before was lost. -/
  | flushed (d : VideoDecoder)

namespace VideoDecoder

/-- The frame size that is used, if the frame was complete or is the first one. -/
def sized (d : VideoDecoder) : VideoDecoder :=
  if d.missingPackets = false ∨ d.frameWidth = 0 ∧ d.frameHeight = 0 then
    { d with frameWidth := d.maxWidth, frameHeight := d.maxHeight }
  else d

/-- The decoder after a frame. -/
def cleared (d : VideoDecoder) : VideoDecoder :=
  { d with
    missingPackets := false
    maxWidth := 0
    maxHeight := 0
    inputFrames := []
    scanlineCounts := [] }

/-- The beginning of `ConvertFrames`. -/
def sort (d : VideoDecoder) (packet : VideoPacket) : Sorted :=
  if packet.payload.length < 2 then .refused
  -- The first packet ever.
  else if d.first = true then
    .taken { d with timeStampOfFrame := packet.timestamp, first := false, missingPackets := false }
  -- If the timestamp has changed, the marker was missed. It does not go backwards.
  else if packet.timestamp ≠ d.timeStampOfFrame then
    if d.inputFrames = [] then .taken { d with timeStampOfFrame := packet.timestamp }
    else if d.timeStampOfFrame > packet.timestamp ∧ d.timeStampOfFrame - packet.timestamp < 1024 then
      .ignored
    else .flushed { d with missingPackets := true }
  -- Out of order, or packets are missing.
  else if receivedSeqNo packet ≠ d.nextSequenceNumber then .taken { d with missingPackets := true }
  else .taken d

/-- The new timestamp. -/
def stamped (d : VideoDecoder) (timestamp : Nat) : VideoDecoder :=
  { d with timeStampOfFrame := timestamp }

/-- The packet is added, with what the pass through its table has found. -/
def added (d : VideoDecoder) (packet : VideoPacket) (scanned : Nat × Nat × Nat) : VideoDecoder :=
  { d with
    nextSequenceNumber := (receivedSeqNo packet + 1) % 4294967296
    maxWidth := scanned.2.1
    maxHeight := scanned.2.2
    inputFrames := d.inputFrames ++ [packet.payload]
    scanlineCounts := d.scanlineCounts ++ [scanned.1] }

end VideoDecoder

namespace Sampling

/-- `DecodeFramesAndSetFrameSize`. -/
def decodeFramesAndSetFrameSize (t : Sampling) (d : VideoDecoder) :
    Option (List DecodedFrame × VideoDecoder) := do
  let output ← t.decodeFrames d.sized
  return (output, d.sized.cleared)

/-- The packet goes to the frame that is being collected, and with the marker the frame is
decoded. -/
def collect (t : Sampling) (d : VideoDecoder) (packet : VideoPacket) :
    Option (List DecodedFrame × VideoDecoder) := do
  let scanned ← t.scanTable packet.payload packet.payload.length 0 d.maxWidth d.maxHeight
  if packet.marker then t.decodeFramesAndSetFrameSize (d.added packet scanned)
  else return ([], d.added packet scanned)

/-- `OpalRFC4175Decoder::ConvertFrames`. -/
def convertFrames (t : Sampling) (d : VideoDecoder) (packet : VideoPacket) :
    Option (Bool × List DecodedFrame × VideoDecoder) :=
  match d.sort packet with
  | .refused => some (false, [], d)
  | .ignored => some (true, [], d)
  | .taken d => do
    let done ← t.collect d packet
    return (true, done)
  | .flushed d => do
    let flushed ← t.decodeFramesAndSetFrameSize d
    let done ← t.collect (flushed.2.stamped packet.timestamp) packet
    return (true, flushed.1 ++ done.1, done.2)

/-- The frames that come out when these packets go in, one after another. -/
def feed (t : Sampling) : VideoDecoder → List VideoPacket →
    Option (List DecodedFrame × VideoDecoder)
  | d, [] => some ([], d)
  | d, packet :: packets => do
    let done ← t.convertFrames d packet
    let rest ← t.feed done.2.2 packets
    return (done.2.1 ++ rest.1, rest.2)

/-- The octets that a segment takes from its packet. The data of an odd row is not skipped. -/
def dataSize : Sampling → ScanLineHeader → Nat
  | ycbcr420, hdr => if hdr.y % 32768 % 2 = 0 then hdr.length / 6 * 6 else 0
  | rgb, hdr => hdr.length / 3 * 3

/-- What is written of a segment lies in a frame of this size. -/
def Lies : Sampling → Nat → Nat → ScanLineHeader → Prop
  | ycbcr420, width, height, hdr => hdr.y % 32768 % 2 = 0 → 0 < hdr.length / 6 →
    hdr.y % 32768 * width + hdr.offset % 32768 + width + 2 * (hdr.length / 6) ≤
        width * height * 12 / 8 ∧
      width * height + width * height / 4 + (hdr.y % 32768 * width / 4 + hdr.offset % 32768 / 2) +
        hdr.length / 6 ≤ width * height * 12 / 8
  | rgb, width, height, hdr => 0 < hdr.length / 3 →
    hdr.y % 32768 * width + hdr.offset % 32768 + hdr.length / 3 ≤ width * height

instance (t : Sampling) (width height : Nat) (hdr : ScanLineHeader) :
    Decidable (t.Lies width height hdr) := by
  cases t <;> unfold Lies <;> infer_instance

/-- The table of a packet. -/
def table (source : Octets × Nat) : List ScanLineHeader :=
  (List.range source.2).map (headerAt source.1)

/-- A packet has the octets of all its segments, and they lie in the frame. -/
def SourceFits (t : Sampling) (width height : Nat) (source : Octets × Nat) : Prop :=
  ((table source).map t.dataSize).sum ≤ source.1.length - rfc4175HeaderSize source.2 ∧
    ∀ hdr ∈ table source, t.Lies width height hdr

instance (t : Sampling) (width height : Nat) (source : Octets × Nat) :
    Decidable (t.SourceFits width height source) := inferInstanceAs (Decidable (_ ∧ _))

/-- The collected packets fit the frame that is made of them, and its size is an `int`. -/
def FrameFits (t : Sampling) (d : VideoDecoder) : Prop :=
  d.inputFrames ≠ [] → (t.pixelsToBytes (d.frameWidth * d.frameHeight)).isSome = true ∧
    ∀ source ∈ d.inputFrames.zip d.scanlineCounts, t.SourceFits d.frameWidth d.frameHeight source

instance (t : Sampling) (d : VideoDecoder) : Decidable (t.FrameFits d) :=
  inferInstanceAs (Decidable (_ → _))

/-- With a marker, the packets fit together with this one. -/
def CollectFits (t : Sampling) (d : VideoDecoder) (packet : VideoPacket) : Prop :=
  packet.marker = true →
    ∀ scanned ∈ t.scanTable packet.payload packet.payload.length 0 d.maxWidth d.maxHeight,
      t.FrameFits (d.added packet scanned).sized

/-- The frames that are decoded with this packet fit. -/
def PacketFits (t : Sampling) (d : VideoDecoder) (packet : VideoPacket) : Prop :=
  match d.sort packet with
  | .refused => True
  | .ignored => True
  | .taken d => t.CollectFits d packet
  | .flushed d => t.FrameFits d.sized ∧
    t.CollectFits (d.sized.cleared.stamped packet.timestamp) packet

/-- This is so for all packets that go in, one after another. -/
def AllFit (t : Sampling) : VideoDecoder → List VideoPacket → Prop
  | _, [] => True
  | d, packet :: packets =>
    t.PacketFits d packet ∧ ∀ done ∈ t.convertFrames d packet, t.AllFit done.2.2 packets

end Sampling

/-- What a step that takes `n` octets of the data and goes on under a condition does to the data and
the buffer. -/
structure Moves (r : Option (Octets × Octets)) (state : Octets × Octets) (n : Nat) (p : Prop) :
    Prop where
  isSome : r.isSome = true ↔ n ≤ state.1.length ∧ p
  data : ∀ s ∈ r, s.1.length = state.1.length - n
  buffer : ∀ s ∈ r, s.2.length = state.2.length

section Moving

variable {state : Octets × Octets} {n m : Nat} {p q : Prop}

theorem moves_some (h : p) : Moves (some state) state 0 p where
  isSome := iff_of_true rfl ⟨Nat.zero_le _, h⟩
  data := by
    intro s hs
    rw [← Option.mem_some_iff.1 hs]
    rfl
  buffer := by
    intro s hs
    rw [← Option.mem_some_iff.1 hs]

theorem moves_none (h : ¬ (n ≤ state.1.length ∧ p)) : Moves none state n p where
  isSome := iff_of_false Bool.false_ne_true h
  data := fun _ hs => (nomatch hs)
  buffer := fun _ hs => (nomatch hs)

/-- One step, and another one. -/
theorem Moves.bind {r : Option (Octets × Octets)} {f : Octets × Octets → Option (Octets × Octets)}
    (h : Moves r state n p) (hf : ∀ s ∈ r, Moves (f s) s m q) :
    Moves (r.bind f) state (n + m) (p ∧ q) := by
  cases r with
  | none =>
      -- What the first step cannot do, both cannot do.
      have hno := h.isSome
      refine moves_none fun hyes => ?_
      exact absurd (hno.2 ⟨Nat.le_of_add_right_le hyes.1, hyes.2.1⟩) Bool.false_ne_true
  | some s =>
      have hs := hf s rfl
      have hfirst := h.isSome.1 rfl
      have hdata := h.data s rfl
      have hbuffer := h.buffer s rfl
      refine ⟨?_, fun s' hs' => ?_, fun s' hs' => (hs.buffer s' hs').trans hbuffer⟩
      · rw [Option.bind_some, hs.isSome, hdata]
        constructor
        · rintro ⟨hle, hq⟩
          exact ⟨by omega, hfirst.2, hq⟩
        · rintro ⟨hle, -, hq⟩
          exact ⟨by omega, hq⟩
      · rw [hs.data s' hs', hdata, Nat.sub_sub]

theorem Moves.congr {r : Option (Octets × Octets)} (h : Moves r state n p) (hn : n = m)
    (hp : p ↔ q) : Moves r state m q := by
  rw [← hn]
  exact ⟨h.isSome.trans (and_congr_right fun _ => hp), h.data, h.buffer⟩

/-- The groups of a segment. -/
theorem moves_writePgroups (count yPlane0 yPlane1 cbPlane crPlane : Nat) (data buffer : Octets) :
    Moves (writePgroups count yPlane0 yPlane1 cbPlane crPlane data buffer) (data, buffer)
      (6 * count) (0 < count → yPlane0 + 2 * count ≤ buffer.length ∧
        yPlane1 + 2 * count ≤ buffer.length ∧ cbPlane + count ≤ buffer.length ∧
        crPlane + count ≤ buffer.length) := by
  induction count generalizing yPlane0 yPlane1 cbPlane crPlane data buffer with
  | zero => exact moves_some fun hpos => absurd hpos (Nat.lt_irrefl _)
  | succ count ih =>
      unfold writePgroups
      split
      · rename_i y00 y01 y10 y11 cb cr rest
        split
        · -- The rest of the groups go behind this one.
          rename_i hroom
          have hrest := ih (yPlane0 + 2) (yPlane1 + 2) (cbPlane + 1) (crPlane + 1) rest
            ((((((buffer.set yPlane0 y00).set (yPlane0 + 1) y01).set yPlane1 y10).set
              (yPlane1 + 1) y11).set cbPlane cb).set crPlane cr)
          simp only [List.length_set] at hrest
          refine ⟨hrest.isSome.trans ?_, fun s hs => ?_, fun s hs => ?_⟩
          · simp only [List.length_cons]
            constructor
            · rintro ⟨hdata, hplanes⟩
              refine ⟨by omega, fun _ => ?_⟩
              by_cases hpos : 0 < count
              · have hplanes := hplanes hpos
                omega
              · omega
            · rintro ⟨hdata, hplanes⟩
              have hplanes := hplanes (Nat.succ_pos _)
              exact ⟨by omega, fun _ => by omega⟩
          · rw [hrest.data s hs]
            simp only [List.length_cons]
            omega
          · rw [hrest.buffer s hs]
            simp only [List.length_set]
        · rename_i hroom
          refine moves_none fun hyes => hroom ?_
          have hplanes := hyes.2 (Nat.succ_pos _)
          omega
      · rename_i hshort
        refine moves_none fun hyes => ?_
        have hsix : 6 ≤ data.length := Nat.le_trans (by omega) hyes.1
        -- Six octets are there for one more group.
        rcases data with _ | ⟨y00, _ | ⟨y01, _ | ⟨y10, _ | ⟨y11, _ | ⟨cb, _ | ⟨cr, rest⟩⟩⟩⟩⟩⟩
        · exact absurd hsix (show ¬ 6 ≤ 0 by decide)
        · exact absurd hsix (show ¬ 6 ≤ 1 by decide)
        · exact absurd hsix (show ¬ 6 ≤ 2 by decide)
        · exact absurd hsix (show ¬ 6 ≤ 3 by decide)
        · exact absurd hsix (show ¬ 6 ≤ 4 by decide)
        · exact absurd hsix (show ¬ 6 ≤ 5 by decide)
        · exact hshort _ _ _ _ _ _ _ rfl

theorem moves_copyRow (count place : Nat) : Moves (copyRow count place state) state count
    (0 < count → place + count ≤ state.2.length) := by
  unfold copyRow
  split
  · rename_i h
    refine ⟨iff_of_true rfl h, ?_, ?_⟩
    · intro s hs
      rw [← Option.mem_some_iff.1 hs]
      exact List.length_drop
    · intro s hs
      rw [← Option.mem_some_iff.1 hs]
      simp only [List.length_append, List.length_take, List.length_drop]
      by_cases hpos : 0 < count
      · have hroom := h.2 hpos
        omega
      · omega
  · rename_i h
    exact moves_none h

end Moving

namespace Sampling

section Decoding

variable {t : Sampling} {width height : Nat}

/-- The segment of one entry. -/
theorem moves_writeEntry {state : Octets × Octets} {hdr : ScanLineHeader}
    (hsize : t.pixelsToBytes (width * height) = some state.2.length) :
    Moves (t.writeEntry width height state hdr) state (t.dataSize hdr)
      (t.Lies width height hdr) := by
  cases t with
  | ycbcr420 =>
      have hlen : width * height * 12 / 8 = state.2.length := by
        change (if width * height * 12 < 2 ^ 31 then some (width * height * 12 / 8) else none) =
          _ at hsize
        split at hsize
        · exact Option.some.inj hsize
        · exact (nomatch hsize)
      change Moves (if hdr.y % 32768 % 2 = 0 then
          writePgroups (hdr.length / 6) (hdr.y % 32768 * width + hdr.offset % 32768)
            (hdr.y % 32768 * width + hdr.offset % 32768 + width)
            (width * height + (hdr.y % 32768 * width / 4 + hdr.offset % 32768 / 2))
            (width * height + width * height / 4 +
              (hdr.y % 32768 * width / 4 + hdr.offset % 32768 / 2)) state.1 state.2
          else some state) state
        (if hdr.y % 32768 % 2 = 0 then hdr.length / 6 * 6 else 0)
        (hdr.y % 32768 % 2 = 0 → 0 < hdr.length / 6 →
          hdr.y % 32768 * width + hdr.offset % 32768 + width + 2 * (hdr.length / 6) ≤
              width * height * 12 / 8 ∧
            width * height + width * height / 4 +
              (hdr.y % 32768 * width / 4 + hdr.offset % 32768 / 2) + hdr.length / 6 ≤
              width * height * 12 / 8)
      rw [hlen]
      by_cases heven : hdr.y % 32768 % 2 = 0
      · rw [if_pos heven, if_pos heven]
        refine (moves_writePgroups _ _ _ _ _ _ _).congr (Nat.mul_comm _ _) ?_
        constructor
        · intro h _ hpos
          have hplanes := h hpos
          exact ⟨hplanes.2.1, hplanes.2.2.2⟩
        · intro h hpos
          rcases h heven hpos with ⟨hluma, hchroma⟩
          exact ⟨by omega, hluma, by omega, hchroma⟩
      · rw [if_neg heven, if_neg heven]
        exact moves_some fun hyes => absurd hyes heven
  | rgb =>
      have hlen : width * height * 3 = state.2.length := by
        change (if width * height * 3 < 2147483648 then some (width * height * 3) else none) =
          _ at hsize
        split at hsize
        · exact Option.some.inj hsize
        · exact (nomatch hsize)
      refine (moves_copyRow _ _).congr rfl ?_
      rw [← hlen]
      constructor
      · intro h hpos
        have hroom := h (by omega)
        omega
      · intro h hpos
        have hroom := h (by omega)
        omega

/-- The segments of a table. -/
theorem moves_table {table : List ScanLineHeader} {state : Octets × Octets}
    (hsize : t.pixelsToBytes (width * height) = some state.2.length) :
    Moves (table.foldlM (t.writeEntry width height) state) state ((table.map t.dataSize).sum)
      (∀ hdr ∈ table, t.Lies width height hdr) := by
  induction table generalizing state with
  | nil => exact moves_some fun hdr hmem => absurd hmem List.not_mem_nil
  | cons hdr table ih =>
      have hfirst := @moves_writeEntry t width height state hdr hsize
      rw [List.foldlM_cons]
      refine (hfirst.bind fun s hs => ih ?_).congr List.sum_cons.symm List.forall_mem_cons.symm
      rw [hfirst.buffer s hs]
      exact hsize

/-- The table of a packet is read again. -/
theorem mapM_readHeader {payload : Octets} {l : List Nat}
    (h : ∀ i ∈ l, rfc4175HeaderSize (i + 1) ≤ payload.length) :
    l.mapM (readHeader payload) = some (l.map (headerAt payload)) := by
  induction l with
  | nil => rfl
  | cons i l ih =>
      rcases List.forall_mem_cons.1 h with ⟨hi, hl⟩
      rw [List.mapM_cons, ih hl, readHeader, if_pos hi]
      rfl

theorem mapM_range {source : Octets × Nat} (htable : rfc4175HeaderSize source.2 ≤ source.1.length) :
    (List.range source.2).mapM (readHeader source.1) = some (table source) := by
  refine mapM_readHeader fun i hi => Nat.le_trans ?_ htable
  have hlt := List.mem_range.1 hi
  unfold rfc4175HeaderSize
  omega

/-- One packet. -/
theorem writeSource_isSome {buffer : Octets} {source : Octets × Nat}
    (hsize : t.pixelsToBytes (width * height) = some buffer.length)
    (htable : rfc4175HeaderSize source.2 ≤ source.1.length) :
    ((t.writeSource width height buffer source).isSome = true ↔ t.SourceFits width height source) ∧
      ∀ b ∈ t.writeSource width height buffer source, b.length = buffer.length := by
  have hmoves := @moves_table t width height (table source)
    (source.1.drop (rfc4175HeaderSize source.2), buffer) hsize
  have heq : t.writeSource width height buffer source =
      ((table source).foldlM (t.writeEntry width height)
        (source.1.drop (rfc4175HeaderSize source.2), buffer)).map Prod.snd := by
    unfold writeSource
    rw [mapM_range htable, Option.bind_eq_bind, Option.bind_some]
    cases (table source).foldlM (t.writeEntry width height)
      (source.1.drop (rfc4175HeaderSize source.2), buffer) with
    | none => rfl
    | some s => rfl
  rw [heq]
  constructor
  · rw [Option.isSome_map, hmoves.isSome, SourceFits, List.length_drop]
  · intro b hb
    rcases Option.map_eq_some_iff.1 hb with ⟨s, hs, rfl⟩
    exact hmoves.buffer s hs

/-- The packets of a frame. -/
theorem writeSources_isSome {sources : List (Octets × Nat)} {buffer : Octets}
    (hsize : t.pixelsToBytes (width * height) = some buffer.length)
    (htables : ∀ source ∈ sources, rfc4175HeaderSize source.2 ≤ source.1.length) :
    (sources.foldlM (t.writeSource width height) buffer).isSome = true ↔
      ∀ source ∈ sources, t.SourceFits width height source := by
  induction sources generalizing buffer with
  | nil => exact iff_of_true rfl fun source hmem => absurd hmem List.not_mem_nil
  | cons source sources ih =>
      rcases List.forall_mem_cons.1 htables with ⟨htable, hrest⟩
      rcases writeSource_isSome hsize htable with ⟨hfits, hlen⟩
      rw [List.foldlM_cons, List.forall_mem_cons, ← hfits]
      cases hfirst : t.writeSource width height buffer source with
      | none => exact iff_of_false Bool.false_ne_true fun hyes => Bool.false_ne_true hyes.1
      | some b =>
          have hsize' : t.pixelsToBytes (width * height) = some b.length := by
            rw [hlen b hfirst]
            exact hsize
          exact (ih hsize' hrest).trans (and_iff_right rfl).symm

/-- The tables of the collected packets are in them. -/
structure Tabled (d : VideoDecoder) : Prop where
  length : d.inputFrames.length = d.scanlineCounts.length
  inside : ∀ source ∈ d.inputFrames.zip d.scanlineCounts,
    rfc4175HeaderSize source.2 ≤ source.1.length

theorem tabled_sized {d : VideoDecoder} (h : Tabled d) : Tabled d.sized := by
  unfold VideoDecoder.sized
  split
  · exact ⟨h.length, h.inside⟩
  · exact h

theorem tabled_cleared (d : VideoDecoder) : Tabled d.cleared :=
  ⟨rfl, fun _ hmem => absurd hmem List.not_mem_nil⟩

/-- The decoding of a frame. -/
theorem decodeFrames_isSome {d : VideoDecoder} (h : Tabled d) :
    (t.decodeFrames d).isSome = true ↔ t.FrameFits d := by
  unfold decodeFrames FrameFits
  by_cases hnone : d.inputFrames = []
  · rw [if_pos hnone]
    exact iff_of_true rfl fun hsome => absurd hnone hsome
  · rw [if_neg hnone]
    cases hsize : t.pixelsToBytes (d.frameWidth * d.frameHeight) with
    | none => exact iff_of_false Bool.false_ne_true fun hyes => Bool.false_ne_true (hyes hnone).1
    | some size =>
        have hsize' : t.pixelsToBytes (d.frameWidth * d.frameHeight) =
            some (List.replicate size (0 : UInt8)).length := by
          rw [List.length_replicate]
          exact hsize
        have hsources := writeSources_isSome hsize' h.inside
        rw [Option.bind_eq_bind, Option.bind_some]
        refine Iff.trans ?_ (hsources.trans ⟨fun hyes _ => ⟨rfl, hyes⟩, fun hyes =>
          (hyes hnone).2⟩)
        cases (d.inputFrames.zip d.scanlineCounts).foldlM
          (t.writeSource d.frameWidth d.frameHeight) (List.replicate size 0) with
        | none => exact Iff.rfl
        | some planes => exact Iff.rfl

theorem decodeFramesAndSetFrameSize_isSome {d : VideoDecoder} (h : Tabled d) :
    ((t.decodeFramesAndSetFrameSize d).isSome = true ↔ t.FrameFits d.sized) ∧
      ∀ done ∈ t.decodeFramesAndSetFrameSize d, done.2 = d.sized.cleared := by
  rw [← decodeFrames_isSome (tabled_sized h)]
  unfold decodeFramesAndSetFrameSize
  cases t.decodeFrames d.sized with
  | none => exact ⟨Iff.rfl, fun done hdone => (nomatch hdone)⟩
  | some output =>
      refine ⟨Iff.rfl, ?_⟩
      intro done hdone
      rcases Option.mem_some_iff.1 hdone with rfl
      rfl

/-- The pass through the table stays inside of the payload. -/
theorem scanTable_spec {payload : Octets} {rounds lineCount maxWidth maxHeight : Nat}
    (h : rfc4175HeaderSize lineCount ≤ payload.length) :
    ∃ scanned, t.scanTable payload rounds lineCount maxWidth maxHeight = some scanned ∧
      rfc4175HeaderSize scanned.1 ≤ payload.length := by
  induction rounds generalizing lineCount maxWidth maxHeight with
  | zero => exact ⟨_, rfl, h⟩
  | succ rounds ih =>
      unfold scanTable
      split
      · rename_i hmore
        rw [readHeader, if_pos (Nat.le_of_lt hmore), Option.bind_eq_bind, Option.bind_some]
        split
        · exact ih (Nat.le_of_lt hmore)
        · exact ⟨_, rfl, Nat.le_of_lt hmore⟩
      · exact ⟨_, rfl, h⟩

/-- A packet is added to the others. -/
theorem tabled_added {d : VideoDecoder} {packet : VideoPacket} {scanned : Nat × Nat × Nat}
    (h : Tabled d) (hlen : 2 ≤ packet.payload.length)
    (hscanned : t.scanTable packet.payload packet.payload.length 0 d.maxWidth d.maxHeight =
      some scanned) : Tabled (d.added packet scanned) := by
  have htable : rfc4175HeaderSize 0 ≤ packet.payload.length := hlen
  rcases @scanTable_spec t packet.payload packet.payload.length 0 d.maxWidth d.maxHeight htable
    with ⟨found, hfound, hinside⟩
  rcases Option.some.inj (hscanned.symm.trans hfound) with rfl
  refine ⟨?_, ?_⟩
  · change (d.inputFrames ++ [packet.payload]).length = (d.scanlineCounts ++ [scanned.1]).length
    rw [List.length_append, List.length_append, h.length]
    rfl
  · change ∀ source ∈ (d.inputFrames ++ [packet.payload]).zip (d.scanlineCounts ++ [scanned.1]), _
    rw [List.zip_append h.length, List.forall_mem_append]
    exact ⟨h.inside, List.forall_mem_singleton.2 hinside⟩

theorem collect_isSome {d : VideoDecoder} {packet : VideoPacket} (h : Tabled d)
    (hlen : 2 ≤ packet.payload.length) :
    ((t.collect d packet).isSome = true ↔ t.CollectFits d packet) ∧
      ∀ done ∈ t.collect d packet, Tabled done.2 := by
  have htable : rfc4175HeaderSize 0 ≤ packet.payload.length := hlen
  rcases @scanTable_spec t packet.payload packet.payload.length 0 d.maxWidth d.maxHeight htable
    with ⟨scanned, hscanned, -⟩
  have hadded := tabled_added h hlen hscanned
  unfold collect CollectFits
  rw [hscanned, Option.bind_eq_bind, Option.bind_some]
  cases packet.marker with
  | false =>
      refine ⟨iff_of_true rfl fun hyes => absurd hyes Bool.false_ne_true, ?_⟩
      intro done hdone
      rcases Option.mem_some_iff.1 hdone with rfl
      exact hadded
  | true =>
      rw [if_pos rfl]
      rcases @decodeFramesAndSetFrameSize_isSome t _ hadded with ⟨hfits, hdone⟩
      refine ⟨hfits.trans ⟨?_, fun hyes => hyes rfl scanned rfl⟩, fun done hmem => ?_⟩
      · intro hyes _ other hother
        rcases Option.mem_some_iff.1 hother with rfl
        exact hyes
      · rw [hdone done hmem]
        exact tabled_cleared _

/-- A packet that is collected has the octets of its sequence number. -/
theorem sort_spec {d : VideoDecoder} {packet : VideoPacket} (h : Tabled d) :
    (∀ d', d.sort packet = .taken d' → Tabled d' ∧ 2 ≤ packet.payload.length) ∧
      ∀ d', d.sort packet = .flushed d' → Tabled d' ∧ 2 ≤ packet.payload.length := by
  unfold VideoDecoder.sort
  split
  · exact ⟨fun d' hd' => (nomatch hd'), fun d' hd' => (nomatch hd')⟩
  · rename_i hlen
    have hlen' := Nat.le_of_not_lt hlen
    split
    · refine ⟨fun d' hd' => ?_, fun d' hd' => (nomatch hd')⟩
      rcases Sorted.taken.inj hd' with rfl
      exact ⟨⟨h.length, h.inside⟩, hlen'⟩
    · split
      · split
        · refine ⟨fun d' hd' => ?_, fun d' hd' => (nomatch hd')⟩
          rcases Sorted.taken.inj hd' with rfl
          exact ⟨⟨h.length, h.inside⟩, hlen'⟩
        · split
          · exact ⟨fun d' hd' => (nomatch hd'), fun d' hd' => (nomatch hd')⟩
          · refine ⟨fun d' hd' => (nomatch hd'), fun d' hd' => ?_⟩
            rcases Sorted.flushed.inj hd' with rfl
            exact ⟨⟨h.length, h.inside⟩, hlen'⟩
      · split
        · refine ⟨fun d' hd' => ?_, fun d' hd' => (nomatch hd')⟩
          rcases Sorted.taken.inj hd' with rfl
          exact ⟨⟨h.length, h.inside⟩, hlen'⟩
        · refine ⟨fun d' hd' => ?_, fun d' hd' => (nomatch hd')⟩
          rcases Sorted.taken.inj hd' with rfl
          exact ⟨h, hlen'⟩

/-- A call of `ConvertFrames`. -/
theorem convertFrames_isSome {d : VideoDecoder} {packet : VideoPacket} (h : Tabled d) :
    ((t.convertFrames d packet).isSome = true ↔ t.PacketFits d packet) ∧
      ∀ done ∈ t.convertFrames d packet, Tabled done.2.2 := by
  rcases @sort_spec d packet h with ⟨htaken, hflushed⟩
  cases hsort : d.sort packet with
  | refused =>
      have hdone : t.convertFrames d packet = some (false, [], d) := by
        rw [convertFrames, hsort]
      have hfits : t.PacketFits d packet := by
        rw [PacketFits, hsort]
        trivial
      rw [hdone]
      refine ⟨iff_of_true rfl hfits, fun done hmem => ?_⟩
      rcases Option.mem_some_iff.1 hmem with rfl
      exact h
  | ignored =>
      have hdone : t.convertFrames d packet = some (true, [], d) := by
        rw [convertFrames, hsort]
      have hfits : t.PacketFits d packet := by
        rw [PacketFits, hsort]
        trivial
      rw [hdone]
      refine ⟨iff_of_true rfl hfits, fun done hmem => ?_⟩
      rcases Option.mem_some_iff.1 hmem with rfl
      exact h
  | taken d' =>
      rcases htaken d' hsort with ⟨htabled, hlen⟩
      rcases @collect_isSome t _ _ htabled hlen with ⟨hcollect, hnext⟩
      have hdone : t.convertFrames d packet =
          (t.collect d' packet).map fun done => (true, done) := by
        rw [convertFrames, hsort]
        change (t.collect d' packet).bind (fun done => some (true, done)) = _
        cases t.collect d' packet with
        | none => rfl
        | some done => rfl
      have hfits : t.PacketFits d packet ↔ t.CollectFits d' packet := by
        rw [PacketFits, hsort]
      rw [hdone, hfits, Option.isSome_map]
      refine ⟨hcollect, fun done hmem => ?_⟩
      rcases Option.map_eq_some_iff.1 hmem with ⟨collected, hcollected, rfl⟩
      exact hnext collected hcollected
  | flushed d' =>
      rcases hflushed d' hsort with ⟨htabled, hlen⟩
      rcases @decodeFramesAndSetFrameSize_isSome t _ htabled with ⟨hframe, hcleared⟩
      have hstamped : Tabled (d'.sized.cleared.stamped packet.timestamp) :=
        ⟨rfl, fun _ hmem => absurd hmem List.not_mem_nil⟩
      rcases @collect_isSome t _ _ hstamped hlen with ⟨hcollect, hnext⟩
      have hfits : t.PacketFits d packet ↔ t.FrameFits d'.sized ∧
          t.CollectFits (d'.sized.cleared.stamped packet.timestamp) packet := by
        rw [PacketFits, hsort]
      rw [hfits, ← hframe, ← hcollect, convertFrames, hsort]
      change (((t.decodeFramesAndSetFrameSize d').bind fun flushed =>
        (t.collect (flushed.2.stamped packet.timestamp) packet).bind fun done =>
          some (true, flushed.1 ++ done.1, done.2)).isSome = true ↔ _) ∧
        ∀ done ∈ (t.decodeFramesAndSetFrameSize d').bind fun flushed =>
          (t.collect (flushed.2.stamped packet.timestamp) packet).bind fun done =>
            some (true, flushed.1 ++ done.1, done.2), _
      cases hflush : t.decodeFramesAndSetFrameSize d' with
      | none =>
          exact ⟨iff_of_false Bool.false_ne_true fun hyes => Bool.false_ne_true hyes.1,
            fun done hmem => (nomatch hmem)⟩
      | some flushed =>
          rw [← hcleared flushed hflush] at hnext ⊢
          rw [Option.bind_some]
          cases hcollected : t.collect (flushed.2.stamped packet.timestamp) packet with
          | none =>
              exact ⟨iff_of_false Bool.false_ne_true fun hyes => Bool.false_ne_true hyes.2,
                fun done hmem => (nomatch hmem)⟩
          | some done =>
              refine ⟨iff_of_true rfl ⟨rfl, rfl⟩, fun other hmem => ?_⟩
              rcases Option.mem_some_iff.1 hmem with rfl
              exact hnext done hcollected

/-- The segments of a complete frame lie in it: it has the size that the pass through the tables has
found. -/
theorem lies_of_edges {hdr : ScanLineHeader}
    (hright : hdr.offset % 32768 + hdr.length / t.pgroupSize * t.colsPerPgroup ≤ width)
    (hbottom : hdr.y % 32768 + t.rowsPerPgroup ≤ height) : t.Lies width height hdr := by
  have hrows : (hdr.y % 32768 + t.rowsPerPgroup) * width ≤ width * height := by
    rw [Nat.mul_comm width]
    exact Nat.mul_le_mul_right _ hbottom
  rw [Nat.add_mul] at hrows
  -- The places of the planes are those of whole rows, so this is linear from here.
  cases t with
  | ycbcr420 =>
      change hdr.offset % 32768 + hdr.length / 6 * 2 ≤ width at hright
      change hdr.y % 32768 * width + 2 * width ≤ width * height at hrows
      intro _ _
      constructor
      · omega
      · omega
  | rgb =>
      change hdr.offset % 32768 + hdr.length / 3 * 1 ≤ width at hright
      change hdr.y % 32768 * width + 1 * width ≤ width * height at hrows
      intro _
      omega

end Decoding

section YCbCr

/-! For YCbCr, the decoder is the one that takes back what the encoder has sent. -/

variable {d : VideoDecoder} {packet : VideoPacket}

theorem scanTable_ycbcr420 (payload : Octets) (rounds lineCount maxWidth maxHeight : Nat) :
    ycbcr420.scanTable payload rounds lineCount maxWidth maxHeight =
      some (Codec.scanTable payload rounds lineCount maxWidth maxHeight) := by
  have hmax : ∀ a b : Nat, (if b > a then b else a) = max a b := by
    intro a b
    split
    · omega
    · omega
  induction rounds generalizing lineCount maxWidth maxHeight with
  | zero => rfl
  | succ rounds ih =>
      unfold scanTable Codec.scanTable
      split
      · rename_i hmore
        rw [readHeader, if_pos (Nat.le_of_lt hmore), Option.bind_eq_bind, Option.bind_some]
        simp only [hmax]
        change (if (headerAt payload lineCount).offset / 32768 % 2 = 1 then _ else _) =
          some (if (headerAt payload lineCount).offset / 32768 % 2 = 1 then _ else _)
        split
        · exact ih _ _ _
        · rfl
      · rfl

theorem foldlM_ycbcr420 {width height : Nat} {sources : List (Octets × Nat)} {buffer : Octets}
    (htables : ∀ source ∈ sources, rfc4175HeaderSize source.2 ≤ source.1.length) :
    sources.foldlM (ycbcr420.writeSource width height) buffer =
      sources.foldlM (Codec.writeSource width height) buffer := by
  induction sources generalizing buffer with
  | nil => rfl
  | cons source sources ih =>
      rcases List.forall_mem_cons.1 htables with ⟨htable, hrest⟩
      have hsource : ycbcr420.writeSource width height buffer source =
          Codec.writeSource width height buffer source := by
        unfold writeSource
        rw [mapM_range htable]
        rfl
      rw [List.foldlM_cons, List.foldlM_cons, hsource]
      cases Codec.writeSource width height buffer source with
      | none => rfl
      | some b => exact ih hrest

theorem decodeFramesAndSetFrameSize_ycbcr420 (h : Tabled d) :
    ycbcr420.decodeFramesAndSetFrameSize d = d.decodeFramesAndSetFrameSize := by
  have hdecode : ycbcr420.decodeFrames d.sized = d.sized.decodeFrames := by
    unfold decodeFrames VideoDecoder.decodeFrames
    change (if d.sized.inputFrames = [] then some [] else
      (Codec.pixelsToBytes (d.sized.frameWidth * d.sized.frameHeight)).bind _) = _
    split
    · rfl
    · cases Codec.pixelsToBytes (d.sized.frameWidth * d.sized.frameHeight) with
      | none => rfl
      | some size =>
          rw [Option.bind_some, foldlM_ycbcr420 (tabled_sized h).inside]
          rfl
  unfold decodeFramesAndSetFrameSize
  rw [hdecode]
  rfl

theorem collect_ycbcr420 (h : Tabled d) (hlen : 2 ≤ packet.payload.length) :
    ycbcr420.collect d packet = d.collect packet := by
  have hadded := tabled_added h hlen (scanTable_ycbcr420 packet.payload packet.payload.length 0
    d.maxWidth d.maxHeight)
  unfold collect VideoDecoder.collect
  rw [scanTable_ycbcr420, Option.bind_eq_bind, Option.bind_some]
  split
  · exact decodeFramesAndSetFrameSize_ycbcr420 hadded
  · rfl

theorem convertFrames_ycbcr420 (h : Tabled d) :
    ycbcr420.convertFrames d packet = d.convertFrames packet := by
  rw [convertFrames, VideoDecoder.convertFrames, VideoDecoder.sort]
  by_cases hshort : packet.payload.length < 2
  · rw [if_pos hshort, if_pos hshort]
  · have hlen := Nat.le_of_not_lt hshort
    -- A packet that is collected, with whatever the decoder has changed before.
    have htaken : ∀ d', Tabled d' → ((ycbcr420.collect d' packet).bind fun done =>
        some (true, done)) = (d'.collect packet).bind fun done => some (true, done) := by
      intro d' h'
      rw [collect_ycbcr420 h' hlen]
    rw [if_neg hshort, if_neg hshort]
    by_cases hfirst : d.first = true
    · rw [if_pos hfirst, if_pos hfirst]
      exact htaken _ ⟨h.length, h.inside⟩
    · rw [if_neg hfirst, if_neg hfirst]
      by_cases htime : packet.timestamp ≠ d.timeStampOfFrame
      · rw [if_pos htime, if_pos htime]
        by_cases hnone : d.inputFrames = []
        · rw [if_pos hnone, if_pos hnone]
          exact htaken _ ⟨h.length, h.inside⟩
        · rw [if_neg hnone, if_neg hnone]
          by_cases hearlier : d.timeStampOfFrame > packet.timestamp ∧
              d.timeStampOfFrame - packet.timestamp < 1024
          · rw [if_pos hearlier, if_pos hearlier]
          · rw [if_neg hearlier, if_neg hearlier]
            have hmissing : Tabled { d with missingPackets := true } := ⟨h.length, h.inside⟩
            rw [← decodeFramesAndSetFrameSize_ycbcr420 hmissing]
            have hcleared := (@decodeFramesAndSetFrameSize_isSome ycbcr420 _ hmissing).2
            change (ycbcr420.decodeFramesAndSetFrameSize { d with missingPackets := true }).bind _ =
              (ycbcr420.decodeFramesAndSetFrameSize { d with missingPackets := true }).bind _
            cases hflush : ycbcr420.decodeFramesAndSetFrameSize
              { d with missingPackets := true } with
            | none => rfl
            | some flushed =>
                have hstamped : Tabled (flushed.2.stamped packet.timestamp) := by
                  rw [hcleared flushed hflush]
                  exact ⟨rfl, fun _ hmem => absurd hmem List.not_mem_nil⟩
                have hcollect := collect_ycbcr420 hstamped hlen
                change ((ycbcr420.collect (flushed.2.stamped packet.timestamp) packet).bind
                  fun done => some (true, flushed.1 ++ done.1, done.2)) =
                  ((flushed.2.stamped packet.timestamp).collect packet).bind
                  fun done => some (true, flushed.1 ++ done.1, done.2)
                rw [hcollect]
      · rw [if_neg htime, if_neg htime]
        by_cases hnext : VideoDecoder.receivedSeqNo packet ≠ d.nextSequenceNumber
        · rw [if_pos hnext, if_pos hnext]
          exact htaken _ ⟨h.length, h.inside⟩
        · rw [if_neg hnext, if_neg hnext]
          exact htaken _ h

theorem feed_ycbcr420 (packets : List VideoPacket) (h : Tabled d) :
    ycbcr420.feed d packets = d.feed packets := by
  induction packets generalizing d with
  | nil => rfl
  | cons packet packets ih =>
      have hnext := (@convertFrames_isSome ycbcr420 d packet h).2
      unfold feed VideoDecoder.feed
      rw [convertFrames_ycbcr420 h] at hnext ⊢
      -- Both end here, or go on with the same decoder.
      cases hdone : d.convertFrames packet with
      | none => rfl
      | some done =>
          rw [Option.bind_eq_bind, Option.bind_eq_bind, Option.bind_some, Option.bind_some,
            ih (hnext done hdone)]

end YCbCr

/-- All accesses of the two decoders are inside exactly when the packets fit. -/
theorem decoder_inside (t : Sampling) (packets : List VideoPacket) :
    (t.feed VideoDecoder.init packets).isSome = true ↔ t.AllFit VideoDecoder.init packets := by
  have hall : ∀ d, Tabled d → ((t.feed d packets).isSome = true ↔ t.AllFit d packets) := by
    induction packets with
    | nil => exact fun d _ => iff_of_true rfl trivial
    | cons packet packets ih =>
        intro d h
        rcases @convertFrames_isSome t d packet h with ⟨hfits, hnext⟩
        unfold feed AllFit
        rw [← hfits]
        -- The first packet ends the run, or the others go on from what it leaves.
        cases hdone : t.convertFrames d packet with
        | none => exact iff_of_false Bool.false_ne_true fun hyes => Bool.false_ne_true hyes.1
        | some done =>
            have hrest := ih done.2.2 (hnext done hdone)
            rw [Option.bind_eq_bind, Option.bind_some]
            refine Iff.trans ?_ (hrest.trans ⟨?_, fun hyes => hyes.2 done rfl⟩)
            · cases t.feed done.2.2 packets with
              | none => exact Iff.rfl
              | some rest => exact Iff.rfl
            · refine fun hyes => ⟨rfl, fun other hother => ?_⟩
              rcases Option.mem_some_iff.1 hother with rfl
              exact hyes
  exact hall _ ⟨rfl, fun source hmem => absurd hmem List.not_mem_nil⟩

/-- A segment of six octets, of which the packet has one. -/
theorem data_behind_packet : ¬ (rgb.feed VideoDecoder.init
    [⟨true, 0, 0, [0, 0, 0, 6, 0, 0, 0, 0, 7]⟩]).isSome = true := by
  decide +kernel

end Sampling

end Codec

end CryptoOpal

import CryptoOpal.Codec.ScanTable

/-!
# A Frame of Video Comes Back

The packets of a frame, fed to the decoder in order, give the frame back:
its size and all of its planes.

A packet is made of its number and its segments alone (`packet_sketchOf`), so
the decoder reads from it the number, the table and the octets that the
encoder had put there. While it collects the packets of a frame, the edges it
keeps are those of the segments so far (`Collecting`). With the marker the
edges are the size of the frame, and the groups fill its planes
(`Collecting.decode`). Then it is ready for the next frame.

Rows and offsets take 15 bits in a packet, and lengths 16. No frame comes out
that is higher or wider than such numbers can say (`small_feed`).

## Main definitions

* `payloadOf`, `packetOf`: The packet of some segments.
* `VideoDecoder.Collecting`: What the decoder keeps of the packets so far.
* `VideoDecoder.Ready`: The decoder waits for the packets of a frame.
* `VideoEncoder.FieldsFit`: The segments of a frame fit into tables.
* `VideoDecoder.Small`: What the decoder has seen is not too large.

## Theorems

* `packet_sketchOf`: The encoder makes these packets.
* `convertFrames_collects`: A packet is added to the collected ones.
* `feed_markLast`: All of them are.
* `video_round_trip`: The frame comes back.
* `large_frame_lost`: A frame that is too large does not.
-/

namespace CryptoOpal

namespace Codec

open Lib (Octets slice bigEndian ofBigEndian fill length_bigEndian)

/-- The payload of a packet with this number and these segments. -/
def payloadOf (width height : Nat) (planes : Octets) (number : Nat) (part : List Segment) : Octets :=
  bigEndian 2 (number / 2 ^ 16 % 2 ^ 16) ++ (tableOf part).flatMap ScanLineHeader.octets ++
    (part.flatMap (·.addresses width height)).map (octetAt planes)

/-- The packet, without its marker. -/
def packetOf (timestamp width height : Nat) (planes : Octets) (number : Nat)
    (part : List Segment) : VideoPacket :=
  ⟨false, timestamp, number % 2 ^ 16, payloadOf width height planes number part⟩

/-- The packets of these parts, with numbers that follow each other. -/
def packetsOf (timestamp width height : Nat) (planes : Octets) :
    Nat → List (List Segment) → List VideoPacket
  | _, [] => []
  | number, part :: parts => packetOf timestamp width height planes number part ::
      packetsOf timestamp width height planes (number + 1) parts

section Packets

variable {a b : Nat} {planes : Octets} {part : List Segment}

/-- The groups of segments and the headers of the table are all there is. -/
theorem length_flatMap_addresses {segments : List Segment}
    (hinside : ∀ s ∈ segments, s.Inside a b) :
    6 * segments.length + (segments.flatMap (·.addresses (2 * a) (2 * b))).length =
      sizeOf segments := by
  induction segments with
  | nil => rfl
  | cons s ss ih =>
      obtain ⟨hs, hss⟩ := List.forall_mem_cons.mp hinside
      obtain ⟨p, q, n, rfl, _, _, _⟩ := hs
      have hrest := ih hss
      have hone : sizeOf (⟨6 * n, 2 * q, 2 * p⟩ :: ss) = 6 + 6 * n + sizeOf ss := by
        simp only [sizeOf, List.map_cons, List.sum_cons, scanLineHeaderSize]
      rw [List.flatMap_cons, List.length_append, addresses_eq, length_pgroupAddresses,
        List.length_cons, hone]
      omega

theorem length_payloadOf (hinside : ∀ s ∈ part, s.Inside a b) (number : Nat) :
    (payloadOf (2 * a) (2 * b) planes number part).length = 2 + sizeOf part := by
  simp only [payloadOf, List.length_append, length_bigEndian, length_flatMap_octets,
    length_tableOf, List.length_map, ← length_flatMap_addresses hinside]
  omega

/-- There is data behind the table. -/
theorem size_lt_of_inside (hne : part ≠ []) (hinside : ∀ s ∈ part, s.Inside a b) :
    6 * part.length < sizeOf part := by
  cases part with
  | nil => exact absurd rfl hne
  | cons s ss =>
      obtain ⟨hs, _⟩ := List.forall_mem_cons.mp hinside
      obtain ⟨p, q, n, rfl, hn, _, _⟩ := hs
      rw [← length_flatMap_addresses hinside, List.flatMap_cons, List.length_append, addresses_eq,
        length_pgroupAddresses]
      omega

/-- The planes of a frame of this size. -/
theorem octets_of_frame (a b : Nat) : 2 * a * (2 * b) * 12 / 8 = 6 * (a * b) := by
  have hbits : 2 * a * (2 * b) * 12 = 8 * (6 * (a * b)) := by ring
  rw [hbits]
  exact Nat.mul_div_cancel_left _ (by decide)

/-- The encoder makes the packet of its segments. -/
theorem packet_sketchOf (hplanes : planes.length = 6 * (a * b)) (timestamp number : Nat)
    (hinside : ∀ s ∈ part, s.Inside a b) (hfits : ∀ s ∈ part, s.Fits) :
    (sketchOf number part).packet timestamp (2 * a) (2 * b) planes =
      some (packetOf timestamp (2 * a) (2 * b) planes number part) := by
  have hin : ∀ s ∈ part, ∀ i ∈ s.addresses (2 * a) (2 * b), i < planes.length := by
    intro s hs
    rw [hplanes]
    exact addresses_lt (hinside s hs)
  have htable : (sketchOf number part).table = tableOf part := closeTable_map_header part hfits
  have hdata : (part.map fun s => (s.addresses (2 * a) (2 * b)).map (octetAt planes)).flatten =
      (part.flatMap (·.addresses (2 * a) (2 * b))).map (octetAt planes) := by
    rw [List.map_flatMap, List.flatMap_def]
  have hsize : (sketchOf number part).payloadSize =
      (payloadOf (2 * a) (2 * b) planes number part).length := (length_payloadOf hinside number).symm
  rw [payloadOf] at hsize
  simp only [Sketch.packet, htable, mapM_readSegment (spells_tableOf part hfits) hin,
    Option.bind_eq_bind, Option.bind_some, Option.pure_def, hdata, hsize]
  rw [show (sketchOf number part).extension = number / 2 ^ 16 % 2 ^ 16 from rfl, Nat.sub_self,
    List.replicate_zero, List.append_nil]
  rfl

theorem mapM_packet (hplanes : planes.length = 6 * (a * b)) (timestamp : Nat)
    {parts : List (List Segment)} (hinside : ∀ part ∈ parts, ∀ s ∈ part, s.Inside a b)
    (hfits : ∀ part ∈ parts, ∀ s ∈ part, s.Fits) (number : Nat) :
    (sketches number parts).mapM (fun s => s.packet timestamp (2 * a) (2 * b) planes) =
      some (packetsOf timestamp (2 * a) (2 * b) planes number parts) := by
  induction parts generalizing number with
  | nil => rfl
  | cons part parts ih =>
      obtain ⟨hpart, hparts⟩ := List.forall_mem_cons.mp hinside
      obtain ⟨hpartFits, hpartsFit⟩ := List.forall_mem_cons.mp hfits
      rw [sketches, List.mapM_cons, packet_sketchOf hplanes timestamp number hpart hpartFits,
        ih hparts hpartsFit]
      rfl

/-- The number of a packet, from its two halves. -/
theorem receivedSeqNo_packetOf (planes : Octets) (marker : Bool) (timestamp width height number : Nat)
    (part : List Segment) :
    VideoDecoder.receivedSeqNo
        { packetOf timestamp width height planes number part with marker := marker } =
      number % 2 ^ 32 := by
  have hslice : slice (payloadOf width height planes number part) 0 2 =
      bigEndian 2 (number / 2 ^ 16 % 2 ^ 16) := by
    have hmid := Lib.slice_middle [] (bigEndian 2 (number / 2 ^ 16 % 2 ^ 16))
      ((tableOf part).flatMap ScanLineHeader.octets ++
        (part.flatMap (·.addresses width height)).map (octetAt planes))
    rwa [List.nil_append, ← List.append_assoc, length_bigEndian] at hmid
  have hlow : number % 2 ^ 16 < 2 ^ 16 := Nat.mod_lt number (by decide)
  have hor := Nat.two_pow_add_eq_or_of_lt hlow (number / 2 ^ 16 % 2 ^ 16)
  simp only [VideoDecoder.receivedSeqNo, packetOf, hslice]
  rw [ofBigEndian_two (Nat.mod_lt _ (by decide)), Nat.shiftLeft_eq, Nat.or_comm, Nat.mul_comm, ← hor]
  omega

/-- The pass through the table of a packet. -/
theorem scanTable_payloadOf (planes : Octets) (hne : part ≠ []) (hinside : ∀ s ∈ part, s.Inside a b)
    (hfits : ∀ s ∈ part, s.Fits) (number maxWidth maxHeight : Nat) :
    scanTable (payloadOf (2 * a) (2 * b) planes number part)
        (payloadOf (2 * a) (2 * b) planes number part).length 0 maxWidth maxHeight =
      (part.length, rightEdge maxWidth part, bottomEdge maxHeight part) := by
  have hsize := size_lt_of_inside hne hinside
  have hlen : rfc4175HeaderSize (0 + part.length) <
      (payloadOf (2 * a) (2 * b) planes number part).length := by
    rw [length_payloadOf hinside, rfc4175HeaderSize]
    omega
  have hrounds : part.length ≤ (payloadOf (2 * a) (2 * b) planes number part).length := by
    rw [length_payloadOf hinside]
    omega
  have hread : ∀ i hdr, (tableOf part)[i]? = some hdr →
      headerAt (payloadOf (2 * a) (2 * b) planes number part) (0 + i) = hdr := by
    intro i hdr hget
    obtain ⟨hi, hhdr⟩ := List.getElem?_eq_some_iff.mp hget
    rw [Nat.zero_add, ← hhdr]
    exact headerAt_getElem (length_bigEndian 2 _) (fits_tableOf part hfits) i hi
  rw [scanTable_spec hne hfits hread hlen _ maxWidth maxHeight hrounds, Nat.zero_add]

/-- The groups of a packet are written to their places. -/
theorem writeSource_payloadOf (planes : Octets) (hinside : ∀ s ∈ part, s.Inside a b) (hfits : ∀ s ∈ part, s.Fits)
    (number : Nat) {buffer : Octets} (hbuffer : buffer.length = 6 * (a * b)) :
    writeSource (2 * a) (2 * b) buffer
        (payloadOf (2 * a) (2 * b) planes number part, part.length) =
      some (fill (octetAt planes) (part.flatMap (·.addresses (2 * a) (2 * b))) buffer) := by
  have hlen : 2 + part.length * scanLineHeaderSize =
      (bigEndian 2 (number / 2 ^ 16 % 2 ^ 16) ++
        (tableOf part).flatMap ScanLineHeader.octets).length := by
    rw [List.length_append, length_bigEndian, length_flatMap_octets, length_tableOf,
      scanLineHeaderSize, Nat.mul_comm]
  have hdata : (payloadOf (2 * a) (2 * b) planes number part).drop
      (2 + part.length * scanLineHeaderSize) =
        (part.flatMap (·.addresses (2 * a) (2 * b))).map (octetAt planes) ++ [] := by
    rw [payloadOf, hlen, List.drop_left, List.append_nil]
  have htable : (List.range part.length).map
      (headerAt (payloadOf (2 * a) (2 * b) planes number part)) = tableOf part := by
    have hread := map_headerAt ((part.flatMap (·.addresses (2 * a) (2 * b))).map (octetAt planes))
      (length_bigEndian 2 (number / 2 ^ 16 % 2 ^ 16)) (tableOf part) (fits_tableOf part hfits)
    rwa [length_tableOf] at hread
  have heven : ∀ s ∈ part, s.y % 2 = 0 := by
    intro s hs
    obtain ⟨p, q, n, rfl, _, _, _⟩ := hinside s hs
    exact Nat.mul_mod_right 2 q
  have hin : ∀ s ∈ part, ∀ i ∈ s.addresses (2 * a) (2 * b), i < buffer.length := by
    intro s hs
    rw [hbuffer]
    exact addresses_lt (hinside s hs)
  simp only [writeSource, htable, hdata,
    foldlM_writeSegment (octetAt planes) (spells_tableOf part hfits) heven hin,
    Option.bind_eq_bind, Option.bind_some, Option.pure_def]

end Packets

section Decoder

variable {a b timestamp first : Nat} {planes : Octets} {done : List (List Segment)}
  {d : VideoDecoder}

/-- The decoder has collected the packets of these parts. -/
structure VideoDecoder.Collecting (a b timestamp first : Nat) (planes : Octets)
    (done : List (List Segment)) (d : VideoDecoder) : Prop where
  started : d.first = false
  complete : d.missingPackets = false
  timeStamp : d.timeStampOfFrame = timestamp
  frames : d.inputFrames =
    (packetsOf timestamp (2 * a) (2 * b) planes first done).map VideoPacket.payload
  counts : d.scanlineCounts = done.map List.length
  right : d.maxWidth = rightEdge 0 done.flatten
  bottom : d.maxHeight = bottomEdge 0 done.flatten

/-- The decoder adds the next packet of the frame to the ones it has. -/
def VideoDecoder.Accepts (a b timestamp first : Nat) (planes : Octets)
    (done : List (List Segment)) (d : VideoDecoder) : Prop :=
  ∃ d₁ : VideoDecoder, d₁.Collecting a b timestamp first planes done ∧
    ∀ packet, packet.timestamp = timestamp → 2 ≤ packet.payload.length →
      VideoDecoder.receivedSeqNo packet = (first + done.length) % 2 ^ 32 →
      d.convertFrames packet = (d₁.collect packet).map fun r => (true, r)

/-- No packet waits, and the frame with this timestamp, the first of whose
    packets has this number, is not taken for an old one. -/
structure VideoDecoder.Ready (timestamp first : Nat) (d : VideoDecoder) : Prop where
  frames : d.inputFrames = []
  counts : d.scanlineCounts = []
  right : d.maxWidth = 0
  bottom : d.maxHeight = 0
  complete : d.missingPackets = false
  follows : d.first = true ∨ timestamp ≠ d.timeStampOfFrame ∨
    d.nextSequenceNumber = first % 2 ^ 32

theorem ready_init (timestamp first : Nat) : VideoDecoder.init.Ready timestamp first :=
  ⟨rfl, rfl, rfl, rfl, rfl, Or.inl rfl⟩

/-- With nothing collected, the first packet starts a frame. -/
theorem VideoDecoder.Ready.accepts (planes : Octets) (h : d.Ready timestamp first) :
    d.Accepts a b timestamp first planes [] := by
  refine ⟨{ d with timeStampOfFrame := timestamp, first := false, missingPackets := false },
    ⟨rfl, rfl, rfl, h.frames, h.counts, h.right, h.bottom⟩, ?_⟩
  intro packet htime hlen hnumber
  have hlong : ¬ packet.payload.length < 2 := Nat.not_lt.mpr hlen
  have hbind : ∀ x : Option (List DecodedFrame × VideoDecoder),
      (x.bind fun done => some (true, done)) = x.map fun r => (true, r) := by
    intro x
    cases x <;> rfl
  rcases Bool.eq_false_or_eq_true d.first with hfirst | hfirst
  · simp only [VideoDecoder.convertFrames, if_neg hlong, hfirst, if_true, htime,
      Option.bind_eq_bind, Option.pure_def]
    exact hbind _
  · have hsame : { d with timeStampOfFrame := timestamp, first := false, missingPackets := false } =
        { d with timeStampOfFrame := timestamp } := by
      obtain ⟨inputFrames, scanlineCounts, frameWidth, frameHeight, first', missingPackets,
        maxWidth, maxHeight, nextSequenceNumber, timeStampOfFrame⟩ := d
      have hmissing := h.complete
      simp only at hfirst hmissing
      rw [hfirst, hmissing]
    rw [hsame]
    have hnot : ¬ d.first = true := by
      rw [hfirst]
      exact Bool.false_ne_true
    by_cases htimestamp : packet.timestamp ≠ d.timeStampOfFrame
    · simp only [VideoDecoder.convertFrames, if_neg hlong, if_neg hnot, if_pos htimestamp,
        if_pos h.frames, Option.bind_eq_bind, Option.pure_def]
      rw [htime]
      exact hbind _
    · have hstamp : d.timeStampOfFrame = timestamp := by
        rw [← htime]
        exact (Decidable.not_not.mp htimestamp).symm
      have hnext : d.nextSequenceNumber = first % 2 ^ 32 := by
        rcases h.follows with hf | hf | hf
        · exact absurd hf hnot
        · exact absurd hstamp.symm hf
        · exact hf
      have hexpected : ¬ VideoDecoder.receivedSeqNo packet ≠ d.nextSequenceNumber := by
        rw [hnumber, hnext, List.length_nil, Nat.add_zero]
        exact fun hne => hne rfl
      simp only [VideoDecoder.convertFrames, if_neg hlong, if_neg hnot, if_neg htimestamp,
        if_neg hexpected, Option.bind_eq_bind, Option.pure_def]
      rw [← hstamp]
      exact hbind _

/-- In the middle of a frame, the packet with the next number is the next. -/
theorem VideoDecoder.Collecting.accepts (h : d.Collecting a b timestamp first planes done)
    (hnext : d.nextSequenceNumber = (first + done.length) % 2 ^ 32) :
    d.Accepts a b timestamp first planes done := by
  refine ⟨d, h, ?_⟩
  intro packet htime hlen hnumber
  have hlong : ¬ packet.payload.length < 2 := Nat.not_lt.mpr hlen
  have hnot : ¬ d.first = true := by
    rw [h.started]
    exact Bool.false_ne_true
  have htimestamp : ¬ packet.timestamp ≠ d.timeStampOfFrame := by
    rw [htime, h.timeStamp]
    exact fun hne => hne rfl
  have hexpected : ¬ VideoDecoder.receivedSeqNo packet ≠ d.nextSequenceNumber := by
    rw [hnumber, hnext]
    exact fun hne => hne rfl
  simp only [VideoDecoder.convertFrames, if_neg hlong, if_neg hnot, if_neg htimestamp,
    if_neg hexpected, Option.bind_eq_bind, Option.pure_def]
  cases d.collect packet <;> rfl

theorem packetsOf_append (timestamp width height : Nat) (planes : Octets) (number : Nat)
    (parts parts' : List (List Segment)) :
    packetsOf timestamp width height planes number (parts ++ parts') =
      packetsOf timestamp width height planes number parts ++
        packetsOf timestamp width height planes (number + parts.length) parts' := by
  induction parts generalizing number with
  | nil => rfl
  | cons part parts ih =>
      simp only [List.cons_append, packetsOf, ih, List.length_cons, Nat.add_assoc, Nat.add_comm 1]

/-- Collecting a packet adds it, and with the marker the frame is decoded. -/
theorem VideoDecoder.Collecting.collect (h : d.Collecting a b timestamp first planes done)
    {part : List Segment} (hne : part ≠ []) (hinside : ∀ s ∈ part, s.Inside a b)
    (hfits : ∀ s ∈ part, s.Fits) (marker : Bool) :
    ∃ d' : VideoDecoder, d'.Collecting a b timestamp first planes (done ++ [part]) ∧
      d'.nextSequenceNumber = (first + (done ++ [part]).length) % 2 ^ 32 ∧
      d.collect { packetOf timestamp (2 * a) (2 * b) planes (first + done.length) part with
          marker := marker } =
        if marker then d'.decodeFramesAndSetFrameSize else some ([], d') := by
  have hnumber := receivedSeqNo_packetOf planes marker timestamp (2 * a) (2 * b)
    (first + done.length) part
  have hscan := scanTable_payloadOf planes hne hinside hfits (first + done.length)
    d.maxWidth d.maxHeight
  have hnext : ((first + done.length) % 2 ^ 32 + 1) % 2 ^ 32 =
      (first + (done ++ [part]).length) % 2 ^ 32 := by
    rw [List.length_append, List.length_singleton]
    omega
  refine ⟨{ d with
      nextSequenceNumber := ((first + done.length) % 2 ^ 32 + 1) % 2 ^ 32
      maxWidth := rightEdge d.maxWidth part
      maxHeight := bottomEdge d.maxHeight part
      inputFrames := d.inputFrames ++
        [payloadOf (2 * a) (2 * b) planes (first + done.length) part]
      scanlineCounts := d.scanlineCounts ++ [part.length] }, ?_, hnext, ?_⟩
  · refine ⟨h.started, h.complete, h.timeStamp, ?_, ?_, ?_, ?_⟩
    · simp only [h.frames, packetsOf_append, packetsOf, List.map_append, List.map_cons,
        List.map_nil, packetOf]
    · simp only [h.counts, List.map_append, List.map_cons, List.map_nil]
    · simp only [h.right, rightEdge, List.flatten_append, List.flatten_singleton, List.foldl_append]
    · simp only [h.bottom, bottomEdge, List.flatten_append, List.flatten_singleton,
        List.foldl_append]
  · rw [VideoDecoder.collect, hnumber]
    simp only [packetOf, hscan]

/-- All the packets of the frame are fed to the decoder, and the last has the
    marker. -/
theorem feed_markLast {rest : List (List Segment)} (hne : rest ≠ [])
    (hnonempty : ∀ part ∈ rest, part ≠ []) (hinside : ∀ part ∈ rest, ∀ s ∈ part, s.Inside a b)
    (hfits : ∀ part ∈ rest, ∀ s ∈ part, s.Fits)
    (h : d.Accepts a b timestamp first planes done) :
    ∃ d' : VideoDecoder, d'.Collecting a b timestamp first planes (done ++ rest) ∧
      d'.nextSequenceNumber = (first + (done ++ rest).length) % 2 ^ 32 ∧
      d.feed (markLast (packetsOf timestamp (2 * a) (2 * b) planes (first + done.length) rest)) =
        d'.decodeFramesAndSetFrameSize := by
  induction rest generalizing done d with
  | nil => exact absurd rfl hne
  | cons part rest ih =>
      obtain ⟨hpartne, hrestne⟩ := List.forall_mem_cons.mp hnonempty
      obtain ⟨hpart, hrest⟩ := List.forall_mem_cons.mp hinside
      obtain ⟨hpartFits, hrestFits⟩ := List.forall_mem_cons.mp hfits
      obtain ⟨d₁, hcollecting, hconvert⟩ := h
      have hlen : 2 ≤ (payloadOf (2 * a) (2 * b) planes (first + done.length) part).length := by
        rw [length_payloadOf hpart]
        omega
      cases rest with
      | nil =>
          obtain ⟨d', hcollecting', hnext, hcollect⟩ :=
            hcollecting.collect hpartne hpart hpartFits true
          refine ⟨d', hcollecting', hnext, ?_⟩
          have hstep := hconvert { packetOf timestamp (2 * a) (2 * b) planes
            (first + done.length) part with marker := true } rfl hlen
            (receivedSeqNo_packetOf planes true timestamp (2 * a) (2 * b) (first + done.length) part)
          rw [if_pos rfl] at hcollect
          simp only [packetsOf, markLast, VideoDecoder.feed, hstep, hcollect]
          cases d'.decodeFramesAndSetFrameSize with
          | none => rfl
          | some r =>
              simp only [Option.map_some, Option.bind_eq_bind, Option.bind_some, Option.pure_def,
                List.append_nil]
      | cons part' rest =>
          obtain ⟨d', hcollecting', hnext, hcollect⟩ :=
            hcollecting.collect hpartne hpart hpartFits false
          have hstep := hconvert (packetOf timestamp (2 * a) (2 * b) planes
            (first + done.length) part) rfl hlen
            (receivedSeqNo_packetOf planes false timestamp (2 * a) (2 * b) (first + done.length) part)
          rw [if_neg Bool.false_ne_true] at hcollect
          obtain ⟨d'', hcollecting'', hnext'', hfeed⟩ := ih (List.cons_ne_nil part' rest) hrestne
            hrest hrestFits (hcollecting'.accepts hnext)
          rw [List.append_assoc, List.singleton_append] at hcollecting'' hnext''
          refine ⟨d'', hcollecting'', hnext'', ?_⟩
          have hcount : first + (done ++ [part]).length = first + done.length + 1 := by
            rw [List.length_append, List.length_singleton, Nat.add_assoc]
          have hcollect' : d₁.collect (packetOf timestamp (2 * a) (2 * b) planes
              (first + done.length) part) = some ([], d') := hcollect
          have hlist : markLast (packetsOf timestamp (2 * a) (2 * b) planes (first + done.length)
              (part :: part' :: rest)) =
                packetOf timestamp (2 * a) (2 * b) planes (first + done.length) part ::
                  markLast (packetsOf timestamp (2 * a) (2 * b) planes
                    (first + (done ++ [part]).length) (part' :: rest)) := by
            rw [hcount]
            rfl
          rw [hlist, VideoDecoder.feed, hstep, hcollect']
          simp only [Option.map_some, Option.bind_eq_bind, Option.bind_some, Option.pure_def,
            hfeed, List.nil_append]
          cases d''.decodeFramesAndSetFrameSize <;> rfl

/-- The groups of all the packets are written to their places. -/
theorem foldlM_writeSource (timestamp : Nat) (planes : Octets) {parts : List (List Segment)}
    (hinside : ∀ part ∈ parts, ∀ s ∈ part, s.Inside a b)
    (hfits : ∀ part ∈ parts, ∀ s ∈ part, s.Fits) (number : Nat) {buffer : Octets}
    (hbuffer : buffer.length = 6 * (a * b)) :
    (((packetsOf timestamp (2 * a) (2 * b) planes number parts).map VideoPacket.payload).zip
        (parts.map List.length)).foldlM (writeSource (2 * a) (2 * b)) buffer =
      some (fill (octetAt planes) (parts.flatten.flatMap (·.addresses (2 * a) (2 * b))) buffer) := by
  induction parts generalizing number buffer with
  | nil => rfl
  | cons part parts ih =>
      obtain ⟨hpart, hparts⟩ := List.forall_mem_cons.mp hinside
      obtain ⟨hpartFits, hpartsFit⟩ := List.forall_mem_cons.mp hfits
      have hwrite := writeSource_payloadOf planes hpart hpartFits number hbuffer
      rw [List.flatten_cons, List.flatMap_append, Lib.fill_append]
      simp only [packetsOf, List.map_cons, List.zip_cons_cons, List.foldlM_cons, packetOf, hwrite,
        Option.bind_eq_bind, Option.bind_some]
      apply ih hparts hpartsFit
      rw [Lib.length_fill]
      exact hbuffer

/-- The packets of a whole frame decode to it. -/
theorem VideoDecoder.Collecting.decode (h : d.Collecting a b timestamp first planes done)
    (ha : 0 < a) (hb : 0 < b) (hne : done ≠ [])
    (htiles : TilesFrame (2 * a) b done.flatten) (hfits : ∀ part ∈ done, ∀ s ∈ part, s.Fits)
    (hsize : 2 * a * (2 * b) * 12 < 2 ^ 31) (hplanes : planes.length = 6 * (a * b)) :
    d.decodeFramesAndSetFrameSize = some ([⟨2 * a, 2 * b, planes⟩],
      { d with
        frameWidth := 2 * a
        frameHeight := 2 * b
        missingPackets := false
        maxWidth := 0
        maxHeight := 0
        inputFrames := []
        scanlineCounts := [] }) := by
  obtain ⟨hright, hbottom⟩ := edges_of_tilesFrame ha hb htiles
  have hinside : ∀ part ∈ done, ∀ s ∈ part, s.Inside a b := by
    intro part hpart s hs
    exact inside_of_tilesFrame htiles s (List.mem_flatten.mpr ⟨part, hpart, hs⟩)
  have hwidth : d.maxWidth = 2 * a := h.right.trans hright
  have hheight : d.maxHeight = 2 * b := h.bottom.trans hbottom
  have hwaiting : d.inputFrames ≠ [] := by
    obtain ⟨part, parts, rfl⟩ := List.exists_cons_of_ne_nil hne
    rw [h.frames, packetsOf, List.map_cons]
    exact List.cons_ne_nil _ _
  have hbytes : pixelsToBytes (2 * a * (2 * b)) = some (6 * (a * b)) := by
    rw [pixelsToBytes, if_pos hsize, octets_of_frame]
  have hwrite := foldlM_writeSource timestamp planes hinside hfits first
    (List.length_replicate (n := 6 * (a * b)) (a := (0 : UInt8)))
  have hfill : fill (octetAt planes) (done.flatten.flatMap (·.addresses (2 * a) (2 * b)))
      (List.replicate (6 * (a * b)) 0) = planes := by
    apply Lib.fill_eq
    · rw [List.length_replicate, hplanes]
    · intro i hi
      exact (getElem?_of_lt hi).symm
    · intro i hi
      rw [hplanes] at hi
      exact List.mem_flatMap.mpr (mem_addresses_of_tilesFrame htiles hi)
  rw [← h.frames, ← h.counts, hfill] at hwrite
  have hcomplete : d.missingPackets = false ∨ d.frameWidth = 0 ∧ d.frameHeight = 0 :=
    Or.inl h.complete
  simp only [VideoDecoder.decodeFramesAndSetFrameSize, if_pos hcomplete, VideoDecoder.decodeFrames,
    if_neg hwaiting, hwidth, hheight, hbytes, hwrite, Option.bind_eq_bind, Option.bind_some,
    Option.pure_def]

end Decoder

section RoundTrip

/-- All the segments that a frame is cut up into fit into tables. -/
def VideoEncoder.FieldsFit (enc : VideoEncoder) (header : FrameHeader) : Prop :=
  ∀ e, encodeFullFrame enc.maximumPacketSize header.width header.height
      ⟨[], none, 0, enc.extendedSequenceNumber⟩ = some e →
    ∀ sketch ∈ (finishOutputFrame e).finished, ∀ s ∈ sketch.segments, s.Fits

theorem segments_of_sketches {parts : List (List Segment)} {part : List Segment}
    (hpart : part ∈ parts) (number : Nat) :
    ∃ sketch ∈ sketches number parts, sketch.segments = part := by
  induction parts generalizing number with
  | nil => exact absurd hpart List.not_mem_nil
  | cons part' parts ih =>
      rcases List.mem_cons.mp hpart with hpart | hpart
      · exact ⟨sketchOf number part', List.mem_cons_self, hpart.symm⟩
      · obtain ⟨sketch, hmem, hsegments⟩ := ih hpart (number + 1)
        exact ⟨sketch, List.mem_cons_of_mem _ hmem, hsegments⟩

/-- No segment is too long for a table in a frame of this size, whatever the
    size of the packets. -/
theorem fieldsFit_of_le (enc : VideoEncoder) (header : FrameHeader)
    (hmax : minHeaderSize + 2 + scanLineHeaderSize + pgroupSize ≤ enc.maximumPacketSize)
    (heven : header.width % 2 = 0 ∧ header.height % 2 = 0)
    (hwidth : header.width ≤ 21844) (hheight : header.height ≤ 32768) : enc.FieldsFit header := by
  obtain ⟨e, parts, hrun, hok, htiles⟩ := encodeFullFrame_spec hmax
    (show header.width = 2 * (header.width / 2) by omega)
    (show header.height = 2 * (header.height / 2) by omega) enc.extendedSequenceNumber
  intro e' hrun' sketch hsketch s hs
  obtain rfl := Option.some.inj (hrun.symm.trans hrun')
  rw [hok.finished] at hsketch
  -- A segment of a finished frame is one of the segments that cover the frame.
  have hmem : ∀ (number : Nat) (parts : List (List Segment)), sketch ∈ sketches number parts →
      s ∈ parts.flatten := by
    intro number parts
    induction parts generalizing number with
    | nil =>
        intro h
        exact absurd h List.not_mem_nil
    | cons part parts ih =>
        intro h
        rw [List.flatten_cons]
        rcases List.mem_cons.mp h with h | h
        · rw [h] at hs
          exact List.mem_append_left _ hs
        · exact List.mem_append_right _ (ih (number + 1) h)
  rw [show header.width = 2 * (header.width / 2) by omega] at htiles
  obtain ⟨p, q, n, rfl, _, hp, hq⟩ := inside_of_tilesFrame htiles s (hmem _ _ hsketch)
  exact ⟨by simp only; omega, by simp only; omega, by simp only; omega⟩

/-- A frame comes back from its packets, and both sides are ready for the next
    one. -/
theorem video_round_trip (enc : VideoEncoder) (d : VideoDecoder) (timestamp : Nat)
    (header : FrameHeader) (planes : Octets) (hpos : 0 < header.width ∧ 0 < header.height)
    (heven : header.width % 2 = 0 ∧ header.height % 2 = 0) (hwhole : header.x = 0 ∨ header.y = 0)
    (hsize : header.width * header.height * 12 < 2 ^ 31)
    (hplanes : planes.length = header.width * header.height * 12 / 8)
    (hmax : minHeaderSize + 2 + scanLineHeaderSize + pgroupSize ≤ enc.maximumPacketSize)
    (hfits : enc.FieldsFit header) (hready : d.Ready timestamp enc.extendedSequenceNumber) :
    ∃ packets enc' d', enc.convertFrames timestamp header planes = some (true, packets, enc') ∧
      d.feed packets = some ([⟨header.width, header.height, planes⟩], d') ∧
      ∀ timestamp', d'.Ready timestamp' enc'.extendedSequenceNumber := by
  obtain ⟨x, y, width, height⟩ := header
  simp only at hpos heven hwhole hsize hplanes
  obtain ⟨a, rfl⟩ : ∃ a, width = 2 * a := ⟨width / 2, by omega⟩
  obtain ⟨b, rfl⟩ : ∃ b, height = 2 * b := ⟨height / 2, by omega⟩
  have ha : 0 < a := by omega
  have hb : 0 < b := by omega
  rw [octets_of_frame] at hplanes
  -- The frame is cut up.
  obtain ⟨e, parts, hrun, hok, htiles⟩ :=
    encodeFullFrame_spec hmax (rfl : 2 * a = 2 * a) (rfl : 2 * b = 2 * b) enc.extendedSequenceNumber
  have hfit : ∀ part ∈ parts, ∀ s ∈ part, s.Fits := by
    intro part hpart s hs
    obtain ⟨sketch, hmem, hsegments⟩ := segments_of_sketches hpart enc.extendedSequenceNumber
    rw [← hok.finished] at hmem
    exact hfits e hrun sketch hmem s (hsegments ▸ hs)
  have hinside : ∀ part ∈ parts, ∀ s ∈ part, s.Inside a b := by
    intro part hpart s hs
    exact inside_of_tilesFrame htiles s (List.mem_flatten.mpr ⟨part, hpart, hs⟩)
  have hne : parts ≠ [] := by
    intro hnil
    obtain ⟨p, n, hmem, _⟩ := exists_of_tilesFrame htiles hb (show 0 < 2 * a by omega)
    rw [hnil, List.flatten_nil] at hmem
    exact absurd hmem List.not_mem_nil
  -- Its packets are made.
  have hbytes : pixelsToBytes (2 * a * (2 * b)) = some (6 * (a * b)) := by
    rw [pixelsToBytes, if_pos hsize, octets_of_frame]
  have hpackets := mapM_packet hplanes timestamp hinside hfit enc.extendedSequenceNumber
  have hpartial : ¬ (x ≠ 0 ∧ y ≠ 0) := by
    intro h
    rcases hwhole with hx | hy
    · exact h.1 hx
    · exact h.2 hy
  have hlong : ¬ planes.length < 6 * (a * b) := by omega
  have hencoded : enc.convertFrames timestamp ⟨x, y, 2 * a, 2 * b⟩ planes =
      some (true, markLast (packetsOf timestamp (2 * a) (2 * b) planes
        enc.extendedSequenceNumber parts),
        { enc with extendedSequenceNumber := (finishOutputFrame e).extendedSequenceNumber }) := by
    simp only [VideoEncoder.convertFrames, if_neg hpartial, hbytes, if_neg hlong, hrun, hok.finished,
      hpackets, Option.bind_eq_bind, Option.bind_some, Option.pure_def]
  -- The decoder collects them all.
  obtain ⟨d', hcollecting, hnext, hfeed⟩ :=
    feed_markLast hne hok.nonempty hinside hfit (hready.accepts planes)
  rw [List.nil_append] at hcollecting hnext
  rw [List.length_nil, Nat.add_zero] at hfeed
  have hdecode := hcollecting.decode ha hb hne htiles hfit hsize hplanes
  refine ⟨_, _, _, hencoded, hfeed.trans hdecode, ?_⟩
  intro timestamp'
  exact ⟨rfl, rfl, rfl, rfl, rfl, Or.inr (Or.inr (hnext.trans hok.next.symm))⟩

/-- A frame of four by two pixels takes two packets that have room for one
    group each. -/
theorem video_round_trip_small :
    ∃ packets enc' d',
      VideoEncoder.convertFrames ⟨0, 26⟩ 0 ⟨0, 0, 4, 2⟩ [1, 2, 3, 4, 5, 6, 7, 8, 9, 10, 11, 12] =
        some (true, packets, enc') ∧
      VideoDecoder.init.feed packets =
        some ([⟨4, 2, [1, 2, 3, 4, 5, 6, 7, 8, 9, 10, 11, 12]⟩], d') ∧
      ∀ timestamp', d'.Ready timestamp' enc'.extendedSequenceNumber :=
  video_round_trip ⟨0, 26⟩ VideoDecoder.init 0 ⟨0, 0, 4, 2⟩ [1, 2, 3, 4, 5, 6, 7, 8, 9, 10, 11, 12]
    (by decide) (by decide) (Or.inl rfl) (by decide) rfl (by decide)
    (fieldsFit_of_le _ _ (by decide) (by decide) (by decide) (by decide)) (ready_init 0 0)

end RoundTrip

section Large

/-- The edges that the decoder has seen are those that a table can say. -/
structure VideoDecoder.Small (d : VideoDecoder) : Prop where
  right : d.maxWidth ≤ 54611
  bottom : d.maxHeight ≤ 32769
  width : d.frameWidth ≤ 54611
  height : d.frameHeight ≤ 32769

/-- Frames that are no larger than that. -/
def SmallFrames (frames : List DecodedFrame) : Prop :=
  ∀ frame ∈ frames, frame.width ≤ 54611 ∧ frame.height ≤ 32769

theorem ofBigEndian_slice_lt (b : Octets) (off : Nat) : ofBigEndian (slice b off 2) < 2 ^ 16 := by
  have hlt := Lib.ofBigEndian_lt (slice b off 2)
  have hlen : (slice b off 2).length ≤ 2 := by
    rw [Lib.length_slice]
    omega
  have hpow : 256 ^ (slice b off 2).length ≤ 256 ^ 2 := Nat.pow_le_pow_right (by decide) hlen
  exact Nat.lt_of_lt_of_le hlt hpow

/-- The pass through a table finds no edge that is further away. -/
theorem scanTable_small (payload : Octets) (rounds lineCount : Nat) {maxWidth maxHeight : Nat}
    (hright : maxWidth ≤ 54611) (hbottom : maxHeight ≤ 32769) :
    (scanTable payload rounds lineCount maxWidth maxHeight).2.1 ≤ 54611 ∧
      (scanTable payload rounds lineCount maxWidth maxHeight).2.2 ≤ 32769 := by
  induction rounds generalizing lineCount maxWidth maxHeight with
  | zero => exact ⟨hright, hbottom⟩
  | succ rounds ih =>
      simp only [scanTable, ite_gt_eq_max]
      have hlength : (headerAt payload lineCount).length < 2 ^ 16 := ofBigEndian_slice_lt payload _
      have hright' : max maxWidth ((headerAt payload lineCount).offset % 2 ^ 15 +
          (headerAt payload lineCount).length / pgroupSize * colsPerPgroup) ≤ 54611 := by
        simp only [pgroupSize, colsPerPgroup]
        omega
      have hbottom' : max maxHeight ((headerAt payload lineCount).y % 2 ^ 15 + rowsPerPgroup) ≤
          32769 := by
        simp only [rowsPerPgroup]
        omega
      by_cases hmore : rfc4175HeaderSize (lineCount + 1) < payload.length
      · rw [if_pos hmore]
        by_cases hbit : (headerAt payload lineCount).offset / 2 ^ 15 % 2 = 1
        · rw [if_pos hbit]
          exact ih (lineCount + 1) hright' hbottom'
        · rw [if_neg hbit]
          exact ⟨hright', hbottom'⟩
      · rw [if_neg hmore]
        exact ⟨hright, hbottom⟩

section Runs

variable {d d' : VideoDecoder} {frames : List DecodedFrame} {packet : VideoPacket}

theorem small_decode (hd : d.Small)
    (h : d.decodeFramesAndSetFrameSize = some (frames, d')) : SmallFrames frames ∧ d'.Small := by
  obtain ⟨hright, hbottom, hwidth, hheight⟩ := hd
  -- The size is the old one or the edges.
  have key : ∀ sized : VideoDecoder, sized.frameWidth ≤ 54611 → sized.frameHeight ≤ 32769 →
      (sized.decodeFrames.bind fun output => some (output,
        { sized with
          missingPackets := false
          maxWidth := 0
          maxHeight := 0
          inputFrames := []
          scanlineCounts := [] })) = some (frames, d') → SmallFrames frames ∧ d'.Small := by
    intro sized hw hh hrun
    obtain ⟨output, hframes, hout⟩ := Option.bind_eq_some_iff.mp hrun
    obtain ⟨rfl, rfl⟩ := Prod.mk.inj (Option.some.inj hout)
    refine ⟨?_, ⟨Nat.zero_le _, Nat.zero_le _, hw, hh⟩⟩
    intro frame hframe
    rw [VideoDecoder.decodeFrames] at hframes
    by_cases hempty : sized.inputFrames = []
    · rw [if_pos hempty] at hframes
      rw [← Option.some.inj hframes] at hframe
      exact absurd hframe List.not_mem_nil
    · rw [if_neg hempty] at hframes
      obtain ⟨size, _, hframes⟩ := Option.bind_eq_some_iff.mp hframes
      obtain ⟨planes, _, hframes⟩ := Option.bind_eq_some_iff.mp hframes
      rw [← Option.some.inj hframes] at hframe
      rw [List.mem_singleton.mp hframe]
      exact ⟨hw, hh⟩
  rw [VideoDecoder.decodeFramesAndSetFrameSize] at h
  by_cases hset : d.missingPackets = false ∨ d.frameWidth = 0 ∧ d.frameHeight = 0
  · simp only [if_pos hset] at h
    exact key { d with frameWidth := d.maxWidth, frameHeight := d.maxHeight } hright hbottom h
  · simp only [if_neg hset] at h
    exact key d hwidth hheight h

theorem small_collect (hd : d.Small) (h : d.collect packet = some (frames, d')) :
    SmallFrames frames ∧ d'.Small := by
  have hscan := scanTable_small packet.payload packet.payload.length 0 hd.right hd.bottom
  rw [VideoDecoder.collect] at h
  by_cases hmarker : packet.marker = true
  · simp only [if_pos hmarker] at h
    refine small_decode ?_ h
    exact ⟨hscan.1, hscan.2, hd.width, hd.height⟩
  · simp only [if_neg hmarker] at h
    obtain ⟨rfl, rfl⟩ := Prod.mk.inj (Option.some.inj h)
    exact ⟨fun frame hframe => absurd hframe List.not_mem_nil,
      ⟨hscan.1, hscan.2, hd.width, hd.height⟩⟩

theorem small_convertFrames {ok : Bool} (hd : d.Small)
    (h : d.convertFrames packet = some (ok, frames, d')) : SmallFrames frames ∧ d'.Small := by
  -- A call that only collects the packet.
  have hcollects : ∀ e : VideoDecoder, e.Small →
      ((e.collect packet).bind fun done => some (true, done)) = some (ok, frames, d') →
      SmallFrames frames ∧ d'.Small := by
    intro e he hrun
    obtain ⟨done, hcollect, hdone⟩ := Option.bind_eq_some_iff.mp hrun
    obtain ⟨_, rfl⟩ := Prod.mk.inj (Option.some.inj hdone)
    exact small_collect he hcollect
  have hsame : some (ok, frames, d') = some (ok, [], d) → SmallFrames frames ∧ d'.Small := by
    intro heq
    obtain ⟨_, heq⟩ := Prod.mk.inj (Option.some.inj heq)
    obtain ⟨rfl, rfl⟩ := Prod.mk.inj heq
    exact ⟨fun frame hframe => absurd hframe List.not_mem_nil, hd⟩
  have hagain : ∀ (time : Nat) (first missing : Bool),
      VideoDecoder.Small { d with
        timeStampOfFrame := time, first := first, missingPackets := missing } :=
    fun _ _ _ => ⟨hd.right, hd.bottom, hd.width, hd.height⟩
  rw [VideoDecoder.convertFrames] at h
  split at h
  · obtain ⟨rfl, _⟩ := Prod.mk.inj (Option.some.inj h)
    exact hsame h.symm
  · split at h
    · exact hcollects _ (hagain packet.timestamp false false) h
    · split at h
      · split at h
        · exact hcollects _ (hagain packet.timestamp d.first d.missingPackets) h
        · split at h
          · obtain ⟨rfl, _⟩ := Prod.mk.inj (Option.some.inj h)
            exact hsame h.symm
          · -- The frame before is put out first.
            obtain ⟨flushed, hflush, h⟩ := Option.bind_eq_some_iff.mp h
            obtain ⟨done, hcollect, hdone⟩ := Option.bind_eq_some_iff.mp h
            obtain ⟨_, hdone⟩ := Prod.mk.inj (Option.some.inj hdone)
            obtain ⟨rfl, rfl⟩ := Prod.mk.inj hdone
            obtain ⟨hout, hsmall⟩ := small_decode (hagain d.timeStampOfFrame d.first true) hflush
            have hstamped : VideoDecoder.Small
                { flushed.2 with timeStampOfFrame := packet.timestamp } :=
              ⟨hsmall.right, hsmall.bottom, hsmall.width, hsmall.height⟩
            obtain ⟨hout', hsmall'⟩ := small_collect hstamped hcollect
            refine ⟨?_, hsmall'⟩
            intro frame hframe
            rcases List.mem_append.mp hframe with hframe | hframe
            · exact hout frame hframe
            · exact hout' frame hframe
      · split at h
        · exact hcollects _ (hagain d.timeStampOfFrame d.first true) h
        · exact hcollects d hd h

/-- No packets make the decoder put out a frame that is larger. -/
theorem small_feed (packets : List VideoPacket) (hd : d.Small)
    (h : d.feed packets = some (frames, d')) : SmallFrames frames ∧ d'.Small := by
  induction packets generalizing d frames with
  | nil =>
      obtain ⟨rfl, rfl⟩ := Prod.mk.inj (Option.some.inj h)
      exact ⟨fun frame hframe => absurd hframe List.not_mem_nil, hd⟩
  | cons packet packets ih =>
      rw [VideoDecoder.feed] at h
      obtain ⟨⟨ok, out, d₁⟩, hstep, h⟩ := Option.bind_eq_some_iff.mp h
      obtain ⟨⟨rest, d₂⟩, hrest, hdone⟩ := Option.bind_eq_some_iff.mp h
      obtain ⟨rfl, rfl⟩ := Prod.mk.inj (Option.some.inj hdone)
      obtain ⟨hout, hsmall⟩ := small_convertFrames hd hstep
      obtain ⟨hout', hsmall'⟩ := ih hsmall hrest
      refine ⟨?_, hsmall'⟩
      intro frame hframe
      rcases List.mem_append.mp hframe with hframe | hframe
      · exact hout frame hframe
      · exact hout' frame hframe

end Runs

/-- A frame with more rows or columns than a table can say does not come back,
    and a frame without pixels has no packets. -/
theorem large_frame_lost :
    (¬ ∃ packets enc' d', VideoEncoder.convertFrames ⟨0, 1400⟩ 0 ⟨0, 0, 2, 32770⟩
        (List.replicate 98310 0) = some (true, packets, enc') ∧
      VideoDecoder.init.feed packets = some ([⟨2, 32770, List.replicate 98310 0⟩], d')) ∧
    (¬ ∃ packets enc' d', VideoEncoder.convertFrames ⟨0, 1400⟩ 0 ⟨0, 0, 54612, 2⟩
        (List.replicate 163836 0) = some (true, packets, enc') ∧
      VideoDecoder.init.feed packets = some ([⟨54612, 2, List.replicate 163836 0⟩], d')) ∧
    VideoEncoder.convertFrames ⟨0, 1400⟩ 0 ⟨0, 0, 0, 0⟩ [] = some (true, [], ⟨0, 1400⟩) := by
  have hinit : VideoDecoder.init.Small :=
    ⟨Nat.zero_le _, Nat.zero_le _, Nat.zero_le _, Nat.zero_le _⟩
  refine ⟨?_, ?_, rfl⟩
  · intro ⟨packets, _, _, _, hfeed⟩
    have hle := ((small_feed packets hinit hfeed).1 _ List.mem_cons_self).2
    exact absurd hle (by simp only; omega)
  · intro ⟨packets, _, _, _, hfeed⟩
    have hle := ((small_feed packets hinit hfeed).1 _ List.mem_cons_self).1
    exact absurd hle (by simp only; omega)

end Large

end Codec

end CryptoOpal

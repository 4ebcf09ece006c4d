import CryptoOpal.Lib.Octets

/-!
# Uncompressed Video in RTP Packets

The encoder from YUV420P frames to the packets of RFC 4175, and the decoder
back. Two rows of pixels are sent together, in groups of two by two: four
octets of luminance and one of each colour. A packet has a table of scan line
headers, each with the length, the row and the offset of a segment of a row
pair, and behind it the groups of all the segments. A bit in the offset says
that another header follows. The decoder finds the size of the frame from the
headers it has seen.

An access outside of a frame or a packet ends with `none`, and so does a frame
whose size is no `int`.

## Main definitions

* `Segment`, `ScanLineHeader`: An entry of the table, before and after it is
  put into 16-bit fields.
* `encodeScanLineSegment`, `encodeFullFrame`: How a frame is cut up.
* `VideoEncoder.convertFrames`: The encoder.
* `VideoDecoder.convertFrames`: The decoder.
-/

namespace CryptoOpal

namespace Codec

open Lib (Octets slice bigEndian ofBigEndian)

/-- `GetPgroupSize`. -/
def pgroupSize : Nat := 6

/-- `GetColsPerPgroup`. -/
def colsPerPgroup : Nat := 2

/-- `GetRowsPerPgroup`. -/
def rowsPerPgroup : Nat := 2

/-- The size of a `ScanLineHeader`. -/
def scanLineHeaderSize : Nat := 6

/-- `RTP_DataFrame::MinHeaderSize`. -/
def minHeaderSize : Nat := 12

/-- `PixelsToBytes`, if its product is an `int`. -/
def pixelsToBytes (pixels : Nat) : Option Nat :=
  if pixels * 12 < 2 ^ 31 then some (pixels * 12 / 8) else none

/-- `RFC4175HeaderSize`. -/
def rfc4175HeaderSize (lines : Nat) : Nat := 2 + lines * 6

/-- `ScanLineHeader`: three fields of 16 bits. -/
structure ScanLineHeader where
  length : Nat
  y : Nat
  offset : Nat
  deriving DecidableEq

/-- The numbers that an entry of the table is made from. -/
structure Segment where
  octets : Nat
  y : Nat
  x : Nat
  deriving DecidableEq

/-- The entry, with the bit for another one behind it. -/
def Segment.header (s : Segment) : ScanLineHeader :=
  ⟨s.octets % 2 ^ 16, s.y % 2 ^ 16, s.x % 2 ^ 16 ||| 0x8000⟩

/-- The table with the bit of the last entry cleared. -/
def closeTable : List ScanLineHeader → List ScanLineHeader
  | [] => []
  | [h] => [{ h with offset := h.offset &&& 0x7fff }]
  | h :: h' :: hs => h :: closeTable (h' :: hs)

/-- An output frame that is finished, but for its data. -/
structure Sketch where
  sequenceNumber : Nat
  extension : Nat
  payloadSize : Nat
  segments : List Segment
  deriving DecidableEq

/-- The table of a packet. -/
def Sketch.table (s : Sketch) : List ScanLineHeader := closeTable (s.segments.map Segment.header)

/-- What the encoder keeps while it cuts up a frame: the finished frames, the
    entries of the one after them, if there is one, and its size. -/
structure Encoding where
  finished : List Sketch
  current : Option (List Segment)
  packetSize : Nat
  extendedSequenceNumber : Nat
  deriving DecidableEq

/-- `FinishOutputFrame`. -/
def finishOutputFrame (e : Encoding) : Encoding :=
  match e.current with
  | none | some [] => e
  | some (s :: ss) =>
    { e with
      finished := e.finished ++ [⟨e.extendedSequenceNumber % 2 ^ 16,
        e.extendedSequenceNumber / 2 ^ 16 % 2 ^ 16, e.packetSize - minHeaderSize, s :: ss⟩]
      extendedSequenceNumber := (e.extendedSequenceNumber + 1) % 2 ^ 32 }

/-- `AddNewDstFrame`. -/
def addNewDstFrame (e : Encoding) : Encoding :=
  { finishOutputFrame e with
    current := some []
    packetSize := minHeaderSize + 2 }

/-- `EncodeScanLineSegment`, from `x` to `endX`. A room below zero is none. The
    loop does not end if no packet has room for a group. -/
def encodeScanLineSegment (maximumPacketSize y endX : Nat) :
    Nat → Nat → Encoding → Option Encoding
  | 0, _, _ => none
  | rounds + 1, x, e =>
    if x < endX then
      let roomLeft := maximumPacketSize - e.packetSize
      if e.current.isNone ∨ roomLeft < scanLineHeaderSize + pgroupSize then
        encodeScanLineSegment maximumPacketSize y endX rounds x (addNewDstFrame e)
      else
        let maxPGroupsInPacket := (roomLeft - scanLineHeaderSize) / pgroupSize
        let pGroupsInScanLine := (endX - x) / colsPerPgroup
        let added :=
          if maxPGroupsInPacket ≤ pGroupsInScanLine then
            (maxPGroupsInPacket * pgroupSize, maxPGroupsInPacket * colsPerPgroup)
          else (pGroupsInScanLine * pgroupSize, endX - x)
        encodeScanLineSegment maximumPacketSize y endX rounds (x + added.2)
          { e with
            current := e.current.map (· ++ [⟨added.1, y, x⟩])
            packetSize := e.packetSize + (scanLineHeaderSize + added.1) }
    else some e

/-- `EncodeFullFrame`. A row pair takes two rounds for each group at most. -/
def encodeFullFrame (maximumPacketSize width height : Nat) (e : Encoding) : Option Encoding :=
  (List.range ((height + 1) / rowsPerPgroup)).foldlM (fun e i =>
    encodeScanLineSegment maximumPacketSize (rowsPerPgroup * i) width (width + 1) 0 e) e

/-- The groups of a segment, from the planes at these places. -/
def readPgroups (src : Octets) : Nat → Nat → Nat → Nat → Nat → Option Octets
  | 0, _, _, _, _ => some []
  | count + 1, yPlane0, yPlane1, cbPlane, crPlane => do
    let y00 ← src[yPlane0]?
    let y01 ← src[yPlane0 + 1]?
    let y10 ← src[yPlane1]?
    let y11 ← src[yPlane1 + 1]?
    let cb ← src[cbPlane]?
    let cr ← src[crPlane]?
    let rest ← readPgroups src count (yPlane0 + 2) (yPlane1 + 2) (cbPlane + 1) (crPlane + 1)
    return y00 :: y01 :: y10 :: y11 :: cb :: cr :: rest

/-- The groups of one entry of a table. -/
def readSegment (width height : Nat) (src : Octets) (hdr : ScanLineHeader) : Option Octets :=
  let x := hdr.offset % 2 ^ 15
  let y := hdr.y % 2 ^ 15
  let chroma := width * y / 4 + x / 2
  readPgroups src (hdr.length / pgroupSize) (width * y + x) (width * y + x + width)
    (width * height + chroma) (width * height + width * height / 4 + chroma)

/-- A scan line header in the payload. -/
def ScanLineHeader.octets (hdr : ScanLineHeader) : Octets :=
  bigEndian 2 hdr.length ++ bigEndian 2 hdr.y ++ bigEndian 2 hdr.offset

/-- What is read of an RTP packet of video. -/
structure VideoPacket where
  marker : Bool
  timestamp : Nat
  sequenceNumber : Nat
  payload : Octets
  deriving DecidableEq

/-- The round of `EndEncoding` for one output frame. The payload was made of
    zeros. -/
def Sketch.packet (s : Sketch) (timestamp width height : Nat) (src : Octets) :
    Option VideoPacket := do
  let data ← s.table.mapM (readSegment width height src)
  let octets := bigEndian 2 s.extension ++ s.table.flatMap ScanLineHeader.octets ++ data.flatten
  return ⟨false, timestamp, s.sequenceNumber,
    octets ++ List.replicate (s.payloadSize - octets.length) 0⟩

/-- The marker bit of the last packet. -/
def markLast : List VideoPacket → List VideoPacket
  | [] => []
  | [p] => [{ p with marker := true }]
  | p :: p' :: ps => p :: markLast (p' :: ps)

/-- `PluginCodec_Video_FrameHeader`. -/
structure FrameHeader where
  x : Nat
  y : Nat
  width : Nat
  height : Nat
  deriving DecidableEq

/-- The encoder between two frames. -/
structure VideoEncoder where
  extendedSequenceNumber : Nat
  maximumPacketSize : Nat
  deriving DecidableEq

/-- `OpalRFC4175Encoder::ConvertFrames`, of the planes behind a frame header. -/
def VideoEncoder.convertFrames (enc : VideoEncoder) (timestamp : Nat) (header : FrameHeader)
    (planes : Octets) : Option (Bool × List VideoPacket × VideoEncoder) :=
  if header.x ≠ 0 ∧ header.y ≠ 0 then some (false, [], enc)
  else do
    let size ← pixelsToBytes (header.width * header.height)
    if planes.length < size then return (false, [], enc)
    else
      let e ← encodeFullFrame enc.maximumPacketSize header.width header.height
        ⟨[], none, 0, enc.extendedSequenceNumber⟩
      let done := finishOutputFrame e
      let packets ← done.finished.mapM fun s =>
        s.packet timestamp header.width header.height planes
      return (true, markLast packets,
        { enc with extendedSequenceNumber := done.extendedSequenceNumber })

/-- A frame that the decoder puts out. -/
structure DecodedFrame where
  width : Nat
  height : Nat
  planes : Octets
  deriving DecidableEq

/-- The decoder. Packets are kept by their payloads. -/
structure VideoDecoder where
  inputFrames : List Octets
  scanlineCounts : List Nat
  frameWidth : Nat
  frameHeight : Nat
  first : Bool
  missingPackets : Bool
  maxWidth : Nat
  maxHeight : Nat
  nextSequenceNumber : Nat
  timeStampOfFrame : Nat
  deriving DecidableEq

/-- The decoder as it is made. What the constructor leaves open is 0. -/
def VideoDecoder.init : VideoDecoder := ⟨[], [], 0, 0, true, false, 0, 0, 0, 0⟩

/-- Entry `l` of the table of a payload. -/
def headerAt (payload : Octets) (l : Nat) : ScanLineHeader :=
  ⟨ofBigEndian (slice payload (2 + l * scanLineHeaderSize) 2),
    ofBigEndian (slice payload (2 + l * scanLineHeaderSize + 2) 2),
    ofBigEndian (slice payload (2 + l * scanLineHeaderSize + 4) 2)⟩

/-- The pass through the table of a packet: the number of its entries, and the
    size of the frame so far. An entry takes octets, so the payload has enough
    rounds. -/
def scanTable (payload : Octets) : Nat → Nat → Nat → Nat → Nat × Nat × Nat
  | 0, lineCount, maxWidth, maxHeight => (lineCount, maxWidth, maxHeight)
  | rounds + 1, lineCount, maxWidth, maxHeight =>
    if rfc4175HeaderSize (lineCount + 1) < payload.length then
      let hdr := headerAt payload lineCount
      let lineLength := hdr.length / pgroupSize
      let right := hdr.offset % 2 ^ 15 + lineLength * colsPerPgroup
      let bottom := hdr.y % 2 ^ 15 + rowsPerPgroup
      let maxWidth := if right > maxWidth then right else maxWidth
      let maxHeight := if bottom > maxHeight then bottom else maxHeight
      if hdr.offset / 2 ^ 15 % 2 = 1 then
        scanTable payload rounds (lineCount + 1) maxWidth maxHeight
      else (lineCount + 1, maxWidth, maxHeight)
    else (lineCount, maxWidth, maxHeight)

/-- Write groups to the planes at these places. The result is what is left of
    the data, and the buffer. -/
def writePgroups : Nat → Nat → Nat → Nat → Nat → Octets → Octets → Option (Octets × Octets)
  | 0, _, _, _, _, data, buffer => some (data, buffer)
  | count + 1, yPlane0, yPlane1, cbPlane, crPlane, data, buffer =>
    match data with
    | y00 :: y01 :: y10 :: y11 :: cb :: cr :: rest =>
      if yPlane0 + 1 < buffer.length ∧ yPlane1 + 1 < buffer.length ∧ cbPlane < buffer.length ∧
          crPlane < buffer.length then
        writePgroups count (yPlane0 + 2) (yPlane1 + 2) (cbPlane + 1) (crPlane + 1) rest
          ((((((buffer.set yPlane0 y00).set (yPlane0 + 1) y01).set yPlane1 y10).set
            (yPlane1 + 1) y11).set cbPlane cb).set crPlane cr)
      else none
    | _ => none

/-- The round of `DecodeFrames` for one entry of a table. An odd row is left
    out, and its data is not skipped. -/
def writeSegment (width height : Nat) (state : Octets × Octets) (hdr : ScanLineHeader) :
    Option (Octets × Octets) :=
  let y := hdr.y % 2 ^ 15
  let x := hdr.offset % 2 ^ 15
  if y % 2 = 0 then
    let chroma := y * width / 4 + x / 2
    writePgroups (hdr.length / pgroupSize) (y * width + x) (y * width + x + width)
      (width * height + chroma) (width * height + width * height / 4 + chroma) state.1 state.2
  else some state

/-- The round of `DecodeFrames` for one packet. -/
def writeSource (width height : Nat) (buffer : Octets) (source : Octets × Nat) : Option Octets := do
  let table := (List.range source.2).map (headerAt source.1)
  let done ← table.foldlM (writeSegment width height)
    (source.1.drop (2 + source.2 * scanLineHeaderSize), buffer)
  return done.2

namespace VideoDecoder

/-- `DecodeFrames`. -/
def decodeFrames (d : VideoDecoder) : Option (List DecodedFrame) :=
  if d.inputFrames = [] then some []
  else do
    let size ← pixelsToBytes (d.frameWidth * d.frameHeight)
    let planes ← (d.inputFrames.zip d.scanlineCounts).foldlM
      (writeSource d.frameWidth d.frameHeight) (List.replicate size 0)
    return [⟨d.frameWidth, d.frameHeight, planes⟩]

/-- `DecodeFramesAndSetFrameSize`. -/
def decodeFramesAndSetFrameSize (d : VideoDecoder) : Option (List DecodedFrame × VideoDecoder) := do
  let sized :=
    if d.missingPackets = false ∨ d.frameWidth = 0 ∧ d.frameHeight = 0 then
      { d with frameWidth := d.maxWidth, frameHeight := d.maxHeight }
    else d
  let output ← sized.decodeFrames
  return (output,
    { sized with
      missingPackets := false
      maxWidth := 0
      maxHeight := 0
      inputFrames := []
      scanlineCounts := [] })

/-- The index of a packet, from its sequence number and the first two octets
    of its payload. -/
def receivedSeqNo (packet : VideoPacket) : Nat :=
  packet.sequenceNumber ||| (ofBigEndian (slice packet.payload 0 2) <<< 16)

/-- The packet goes to the frame that is being collected, and with the marker
    the frame is decoded. -/
def collect (d : VideoDecoder) (packet : VideoPacket) : Option (List DecodedFrame × VideoDecoder) :=
  let scanned := scanTable packet.payload packet.payload.length 0 d.maxWidth d.maxHeight
  let collected :=
    { d with
      nextSequenceNumber := (receivedSeqNo packet + 1) % 2 ^ 32
      maxWidth := scanned.2.1
      maxHeight := scanned.2.2
      inputFrames := d.inputFrames ++ [packet.payload]
      scanlineCounts := d.scanlineCounts ++ [scanned.1] }
  if packet.marker then collected.decodeFramesAndSetFrameSize else some ([], collected)

/-- `OpalRFC4175Decoder::ConvertFrames`. -/
def convertFrames (d : VideoDecoder) (packet : VideoPacket) :
    Option (Bool × List DecodedFrame × VideoDecoder) :=
  if packet.payload.length < 2 then some (false, [], d)
  else if d.first = true then do
    let done ← collect
      { d with timeStampOfFrame := packet.timestamp, first := false, missingPackets := false } packet
    return (true, done)
  else if packet.timestamp ≠ d.timeStampOfFrame then
    if d.inputFrames = [] then do
      let done ← collect { d with timeStampOfFrame := packet.timestamp } packet
      return (true, done)
    else if d.timeStampOfFrame > packet.timestamp ∧ d.timeStampOfFrame - packet.timestamp < 1024 then
      some (true, [], d)
    else do
      -- The marker of the frame before was lost.
      let flushed ← { d with missingPackets := true }.decodeFramesAndSetFrameSize
      let done ← collect { flushed.2 with timeStampOfFrame := packet.timestamp } packet
      return (true, flushed.1 ++ done.1, done.2)
  else if receivedSeqNo packet ≠ d.nextSequenceNumber then do
    let done ← collect { d with missingPackets := true } packet
    return (true, done)
  else do
    let done ← collect d packet
    return (true, done)

/-- The frames that come out when these packets go in, one after another. -/
def feed : VideoDecoder → List VideoPacket → Option (List DecodedFrame × VideoDecoder)
  | d, [] => some ([], d)
  | d, packet :: packets => do
    let done ← d.convertFrames packet
    let rest ← feed done.2.2 packets
    return (done.2.1 ++ rest.1, rest.2)

end VideoDecoder

end Codec

end CryptoOpal

import CryptoOpal.Lib.Octets

/-!
# H.264 in RTP Packets

A frame holds its NAL units in one buffer, with a table of where they are. On
the way out each call of `getRtpFrame` makes one packet: a unit that is too long
is split into fragments, several short ones may be put together into one
aggregate, and any other unit is a packet by itself. Aggregates are made only
when the library is built with them (`SEND_STAP_PACKETS`), which is a parameter
here.

On the way in `setFromRtpFrame` puts the units back into the buffer, each after
a start code. The one thing that it remembers of a fragmented unit is a counter
of 16 bits.

Lengths and offsets are natural numbers: the buffer of a frame has to fit in
memory, and has less than 2^32 octets there.

## Main definitions

* `H264Frame`: The buffer, the table and the state of both directions.
* `H264Frame.getRtpFrame`: The next packet.
* `H264Frame.setFromRtpFrame`: A packet received, `none` when it is read past
  its end.
* `H264Frame.Sound`: The table is about the buffer.

## Theorems

* `heldNals_addNalu`: A unit is added for sending.
* `addDataToEncodedFrame_header`: A unit is begun.
* `addDataToEncodedFrame_more`: The last unit gets longer.
* `sound_load`: What is held for sending.
-/

namespace CryptoOpal

namespace Codec

namespace H264

open Lib (Octets slice bigEndian ofBigEndian)

/-- An entry of the table. -/
structure Nalu where
  type : UInt8
  offset : Nat
  length : Nat
  deriving DecidableEq

structure RtpFrame where
  payload : Octets
  marker : Bool
  deriving DecidableEq

/-- `H264Frame`. The pointer to what remains of a fragmented unit is an offset
into the buffer. -/
structure H264Frame where
  maxPayloadSize : Nat
  encodedFrame : Octets
  nals : List Nalu
  currentNal : Nat
  fuRemainingLen : Nat
  fuRemainingDataPtr : Option Nat
  fuHeader0 : UInt8
  fuHeader1 : UInt8
  currentFu : UInt16
  deriving DecidableEq

namespace H264Frame

/-- The constructor, and `SetMaxPayloadSize`. -/
def create (maxPayloadSize : Nat) : H264Frame where
  maxPayloadSize := maxPayloadSize
  encodedFrame := []
  nals := []
  currentNal := 0
  fuRemainingLen := 0
  fuRemainingDataPtr := none
  fuHeader0 := 0
  fuHeader1 := 0
  currentFu := 0

variable (f : H264Frame)

/-- `BeginNewFrame`. -/
def beginNewFrame : H264Frame := create f.maxPayloadSize

/-- `AddDataToEncodedFrame`, for octets alone. -/
def addOctets (data : Octets) : H264Frame :=
  { f with encodedFrame := f.encodedFrame ++ data }

/-- `AddNALU`. -/
def addNalu (type : UInt8) (length : Nat) (payload : Option Octets) : H264Frame :=
  let entered := { f with nals := f.nals ++ [⟨type, f.encodedFrame.length, length⟩] }
  match payload with
  | none => entered
  | some data => entered.addOctets data

/-- The loop in `EncapsulateSTAP` that finds how many units fit: the length of
the packet, and how many units it takes. -/
def stapScan (maxPayloadSize : Nat) : List Nalu → Nat → Nat → Nat × Nat
  | [], stapLen, count => (stapLen, count)
  | nal :: rest, stapLen, count =>
    let stapLen := stapLen + 2 + nal.length
    if rest ≠ [] ∧ stapLen < maxPayloadSize then
      stapScan maxPayloadSize rest stapLen (count + 1)
    else
      (stapLen, count + 1)

/-- How many units go into the aggregate: the last one is left out if it is too
much. -/
def stapCount (maxPayloadSize : Nat) (nals : List Nalu) : Nat :=
  let scanned := stapScan maxPayloadSize nals 1 0
  if maxPayloadSize < scanned.1 then scanned.2 - 1 else scanned.2

/-- The `maxNRI` of some units. -/
def maxNri (headers : List UInt8) : UInt8 :=
  headers.foldl (fun highest header =>
    if highest < header &&& 0x60 then header &&& 0x60 else highest) 0

/-- The octets of a unit. -/
def octetsOf (nal : Nalu) : Octets := slice f.encodedFrame nal.offset nal.length

/-- `EncapsulateSTAP`. -/
def encapsulateStap : RtpFrame × H264Frame :=
  let count := stapCount f.maxPayloadSize (f.nals.drop f.currentNal)
  let units := ((f.nals.drop f.currentNal).take count).map f.octetsOf
  let sent := { f with currentNal := f.currentNal + count }
  ({ payload := (24 ||| maxNri (units.map fun nal => nal.headD 0)) ::
        units.flatMap fun nal => bigEndian 2 nal.length ++ nal
     marker := decide (f.nals.length ≤ sent.currentNal) }, sent)

/-- The state when the first fragment of a unit is made. The header octet is not
part of what remains. -/
def startFu (nal : Nalu) : H264Frame :=
  let first := f.encodedFrame.getD nal.offset 0
  { f with
    fuRemainingLen := nal.length - 1
    fuRemainingDataPtr := some (nal.offset + 1)
    fuHeader0 := (first &&& 0x60) ||| 28
    fuHeader1 := first &&& 0x1f }

/-- The rest of `EncapsulateFU`, once the header is known. -/
def nextFu (header1 : UInt8) (frame : RtpFrame) : RtpFrame × H264Frame :=
  let ptr := f.fuRemainingDataPtr.getD 0
  let last := decide (f.fuRemainingLen + 2 ≤ f.maxPayloadSize)
  let curFuLen := if last then f.fuRemainingLen else f.maxPayloadSize - 2
  let sent := if 0 < f.fuRemainingLen then
      { payload := f.fuHeader0 :: (if last then header1 ||| 0x40 else header1) ::
          slice f.encodedFrame ptr curFuLen
        marker := last && decide (f.nals.length ≤ f.currentNal + 1) }
    else
      frame
  let remaining := f.fuRemainingLen - curFuLen
  (sent, if remaining = 0 then
      { f with
        fuRemainingLen := 0
        fuRemainingDataPtr := none
        currentNal := f.currentNal + 1 }
    else
      { f with fuRemainingLen := remaining, fuRemainingDataPtr := some (ptr + curFuLen) })

/-- `EncapsulateFU`. -/
def encapsulateFu (nal : Nalu) (frame : RtpFrame) : RtpFrame × H264Frame :=
  if f.fuRemainingLen = 0 ∨ f.fuRemainingDataPtr = none then
    let begun := f.startFu nal
    begun.nextFu (0x80 ||| begun.fuHeader1) frame
  else
    f.nextFu f.fuHeader1 frame

/-- `GetRTPFrame`, into a packet of the caller. -/
def getRtpFrame (sendStapPackets : Bool) (frame : RtpFrame) : Option (RtpFrame × H264Frame) :=
  match f.nals[f.currentNal]? with
  | none => none
  | some nal =>
    if f.maxPayloadSize < nal.length then
      some (f.encapsulateFu nal frame)
    else if sendStapPackets && (f.nals[f.currentNal + 1]?).any fun next =>
        decide (nal.length + next.length + 5 ≤ f.maxPayloadSize) then
      some f.encapsulateStap
    else
      some ({ payload := f.octetsOf nal
              marker := decide (f.nals.length ≤ f.currentNal + 1) },
        { f with currentNal := f.currentNal + 1 })

/-- `AddDataToEncodedFrame`: with a header it begins a unit, without one it goes
on with the last, `none` where there is none. -/
def addDataToEncodedFrame (data : Octets) (header : Option UInt8) : Option H264Frame :=
  match header with
  | some header =>
    let begun := (f.addOctets [0, 0, 0, 1]).addNalu (header &&& 0x1f) (data.length + 1) none
    some ((begun.addOctets [header]).addOctets data)
  | none =>
    match f.nals.getLast? with
    | none => none
    | some last =>
      let longer := { f with
        nals := f.nals.dropLast ++ [{ last with length := last.length + data.length }] }
      some (longer.addOctets data)

/-- `DeencapsulateSTAP`, with one round for each unit. The source copies a unit
before it looks whether it is all there. -/
def deencapsulateStap : Nat → H264Frame → Octets → Option H264Frame
  | _, f, [] => some f
  | 0, _, _ :: _ => none
  | rounds + 1, f, high :: rest =>
    match rest with
    | [] => none
    | low :: rest =>
      let len := ofBigEndian [high, low]
      if rest.length < len then
        none
      else
        match rest.take len with
        | [] => none
        | header :: body =>
          (f.addDataToEncodedFrame body (some header)).bind fun f =>
            deencapsulateStap rounds f (rest.drop len)

/-- `DeencapsulateFU`, given both header octets. -/
def deencapsulateFu (header0 header1 : UInt8) (data : Octets) : Option (H264Frame × Bool) :=
  let start := decide (header1 &&& 0x80 ≠ 0)
  let finish := decide (header1 &&& 0x40 ≠ 0)
  match start, finish with
  | true, false =>
    if f.currentFu ≠ 0 then
      some ({ f with currentFu := 1 }, true)
    else
      (addDataToEncodedFrame { f with currentFu := f.currentFu + 1 } data
        (some ((header0 &&& 0xe0) ||| (header1 &&& 0x1f)))).map fun f => (f, true)
  | false, false =>
    if f.currentFu ≠ 0 then
      (addDataToEncodedFrame { f with currentFu := f.currentFu + 1 } data none).map fun f =>
        (f, true)
    else
      some (f, false)
  | false, true =>
    if f.currentFu ≠ 0 then
      (addDataToEncodedFrame { f with currentFu := 0 } data none).map fun f => (f, true)
    else
      some (f, false)
  | true, true => some ({ f with currentFu := 0 }, false)

/-- `SetFromRTPFrame`. -/
def setFromRtpFrame (frame : RtpFrame) : Option (H264Frame × Bool) :=
  match frame.payload with
  | [] => some (f, true)
  | header :: body =>
    let curNalType := header &&& 0x1f
    if 1 ≤ curNalType ∧ curNalType ≤ 12 then
      (f.addDataToEncodedFrame body (some header)).map fun f => (f, true)
    else if curNalType = 24 then
      (deencapsulateStap body.length f body).map fun f => (f, true)
    else if curNalType = 28 then
      match body with
      | [] => none
      | header1 :: data =>
        (f.deencapsulateFu header header1 data).map fun done =>
          if done.2 then done else (done.1.beginNewFrame, false)
    else
      some (f.beginNewFrame, false)

/-- Packets received one after another. -/
def receive : H264Frame → List RtpFrame → Option H264Frame
  | f, [] => some f
  | f, frame :: frames => (f.setFromRtpFrame frame).bind fun done => done.1.receive frames

/-- The units that a frame holds. -/
def heldNals : List Octets := f.nals.map f.octetsOf

/-- A frame with units to be sent. -/
def load (maxPayloadSize : Nat) (nals : List Octets) : H264Frame :=
  nals.foldl (fun f nal => f.addNalu (nal.headD 0 &&& 0x1f) nal.length (some nal))
    (create maxPayloadSize)

/-- As many calls of `GetRTPFrame` as are made, while it returns true: the state
before each of them, and its packet. -/
def calls (sendStapPackets : Bool) : Nat → H264Frame → List (H264Frame × RtpFrame)
  | 0, _ => []
  | n + 1, f =>
    match f.getRtpFrame sendStapPackets ⟨[], false⟩ with
    | none => []
    | some (frame, f') => (f, frame) :: calls sendStapPackets n f'

/-- The units lie in the buffer, and the last one at its end. -/
structure Sound : Prop where
  inside : ∀ nal ∈ f.nals, nal.offset + nal.length ≤ f.encodedFrame.length
  atEnd : ∀ nal, f.nals.getLast? = some nal → nal.offset + nal.length = f.encodedFrame.length

section Table

variable {f : H264Frame}

theorem length_octetsOf (h : f.Sound) {nal : Nalu} (hnal : nal ∈ f.nals) :
    (f.octetsOf nal).length = nal.length := by
  have hinside := h.inside nal hnal
  rw [octetsOf, Lib.length_slice]
  omega

theorem slice_append {buffer : Octets} {off len : Nat} (h : off + len ≤ buffer.length)
    (data : Octets) : slice (buffer ++ data) off len = slice buffer off len := by
  rw [slice, slice, List.drop_append_of_le_length (by omega), List.take_append_of_le_length]
  rw [List.length_drop]
  omega

/-- More octets at the end change no unit. -/
theorem octetsOf_append (h : f.Sound) {g : H264Frame} {data : Octets}
    (hg : g.encodedFrame = f.encodedFrame ++ data) :
    f.nals.map g.octetsOf = f.nals.map f.octetsOf := by
  apply List.map_congr_left
  intro nal hnal
  rw [octetsOf, octetsOf, hg, slice_append (h.inside nal hnal)]

theorem sound_create (maxPayloadSize : Nat) : (create maxPayloadSize).Sound where
  inside := fun _ hnal => absurd hnal List.not_mem_nil
  atEnd := fun _ hlast => absurd hlast (by simp [create])

/-- A unit at the end of a longer buffer is entered into the table. -/
theorem sound_entered (h : f.Sound) {g : H264Frame} {before data : Octets} {type : UInt8}
    (hframe : g.encodedFrame = f.encodedFrame ++ (before ++ data))
    (hnals : g.nals = f.nals ++ [⟨type, f.encodedFrame.length + before.length, data.length⟩]) :
    g.Sound ∧ g.heldNals = f.heldNals ++ [data] := by
  have hlength : g.encodedFrame.length =
      f.encodedFrame.length + (before.length + data.length) := by
    rw [hframe, List.length_append, List.length_append]
  refine ⟨⟨?_, ?_⟩, ?_⟩
  · intro nal hnal
    rw [hnals] at hnal
    rcases List.mem_append.1 hnal with hold | hnew
    · have hinside := h.inside nal hold
      omega
    · rw [List.mem_singleton] at hnew
      rw [hnew, hlength]
      exact Nat.le_of_eq (Nat.add_assoc _ _ _)
  · intro nal hnal
    rw [hnals, List.getLast?_concat, Option.some.injEq] at hnal
    rw [← hnal, hlength]
    exact Nat.add_assoc _ _ _
  · rw [heldNals, hnals, List.map_append, octetsOf_append h hframe]
    have hmiddle := Lib.slice_middle (f.encodedFrame ++ before) data []
    rw [List.append_nil, List.length_append, List.append_assoc, ← hframe] at hmiddle
    rw [List.map_singleton, octetsOf, hmiddle]
    rfl

/-- A unit is added for sending. -/
theorem sound_addNalu (h : f.Sound) (type : UInt8) (data : Octets) :
    (f.addNalu type data.length (some data)).Sound ∧
      (f.addNalu type data.length (some data)).heldNals = f.heldNals ++ [data] :=
  @sound_entered f h (f.addNalu type data.length (some data)) [] data type rfl rfl

/-- A unit that comes in is put after a start code. -/
theorem addDataToEncodedFrame_header (h : f.Sound) (header : UInt8) (data : Octets) :
    ∃ g, f.addDataToEncodedFrame data (some header) = some g ∧ g.Sound ∧
      g.heldNals = f.heldNals ++ [header :: data] ∧
      g.encodedFrame = f.encodedFrame ++ ([0, 0, 0, 1] ++ header :: data) ∧
      g.currentFu = f.currentFu := by
  refine ⟨_, rfl, ?_⟩
  have hframe : (((((f.addOctets [0, 0, 0, 1]).addNalu (header &&& 0x1f)
      (data.length + 1) none).addOctets [header]).addOctets data).encodedFrame) =
      f.encodedFrame ++ ([0, 0, 0, 1] ++ header :: data) := by
    simp [addOctets, addNalu]
  obtain ⟨hsound, hheld⟩ := @sound_entered f h _ [0, 0, 0, 1] (header :: data)
    (header &&& 0x1f) hframe (by simp [addOctets, addNalu])
  exact ⟨hsound, hheld, hframe, rfl⟩

/-- More octets for the last unit. -/
theorem addDataToEncodedFrame_more (h : f.Sound) {held : List Octets} {last : Octets}
    (hheld : f.heldNals = held ++ [last]) (data : Octets) :
    ∃ g, f.addDataToEncodedFrame data none = some g ∧ g.Sound ∧
      g.heldNals = held ++ [last ++ data] ∧ g.encodedFrame = f.encodedFrame ++ data ∧
      g.currentFu = f.currentFu := by
  -- The table ends with the entry of the last unit.
  obtain ⟨entries, entry, hnals⟩ : ∃ entries entry, f.nals = entries ++ [entry] := by
    rcases List.eq_nil_or_concat f.nals with hnil | ⟨entries, entry, hnals⟩
    · rw [heldNals, hnil] at hheld
      exact absurd hheld (by simp)
    · exact ⟨entries, entry, by simpa using hnals⟩
  have hentry : entry ∈ f.nals := by
    rw [hnals]
    exact List.mem_append_right _ (List.mem_singleton.2 rfl)
  have hend : entry.offset + entry.length = f.encodedFrame.length := by
    apply h.atEnd
    rw [hnals, List.getLast?_concat]
  rw [heldNals, hnals, List.map_append, List.map_singleton] at hheld
  obtain ⟨hentries, hlast⟩ := List.append_inj' hheld rfl
  rw [List.cons.injEq] at hlast
  have hlength : last.length = entry.length := by
    rw [← hlast.1]
    exact length_octetsOf h hentry
  refine ⟨{ f with
    nals := entries ++ [{ entry with length := entry.length + data.length }]
    encodedFrame := f.encodedFrame ++ data }, ?_, ⟨?_, ?_⟩, ?_, rfl, rfl⟩
  · simp [addDataToEncodedFrame, hnals, addOctets]
  · intro nal hnal
    rw [List.length_append]
    rcases List.mem_append.1 hnal with hold | hnew
    · have hinside := h.inside nal (by
        rw [hnals]
        exact List.mem_append_left _ hold)
      omega
    · rw [List.mem_singleton] at hnew
      rw [hnew]
      change entry.offset + (entry.length + data.length) ≤ _
      omega
  · intro nal hnal
    rw [List.getLast?_concat, Option.some.injEq] at hnal
    rw [← hnal, List.length_append]
    change entry.offset + (entry.length + data.length) = _
    omega
  · rw [heldNals, List.map_append, List.map_singleton]
    congr 1
    · rw [← hentries]
      apply List.map_congr_left
      intro nal hnal
      have hinside := h.inside nal (by
        rw [hnals]
        exact List.mem_append_left _ hnal)
      rw [octetsOf, octetsOf, slice_append hinside]
    · -- The entry reaches up to the end, before and after.
      have hall : f.octetsOf entry = f.encodedFrame.drop entry.offset := by
        apply List.take_of_length_le
        rw [List.length_drop]
        omega
      rw [← hlast.1, hall, ← List.drop_append_of_le_length (by omega)]
      congr 1
      apply List.take_of_length_le
      rw [List.length_drop, List.length_append]
      change _ ≤ entry.length + data.length
      have hoffset : entry.offset ≤ f.encodedFrame.length := by omega
      change f.encodedFrame.length + data.length - entry.offset ≤ _
      omega

/-- What is held for sending. -/
theorem sound_load (maxPayloadSize : Nat) (nals : List Octets) :
    (load maxPayloadSize nals).Sound ∧ (load maxPayloadSize nals).heldNals = nals ∧
      (load maxPayloadSize nals).maxPayloadSize = maxPayloadSize ∧
      (load maxPayloadSize nals).currentNal = 0 ∧
      (load maxPayloadSize nals).fuRemainingDataPtr = none := by
  -- The units so far are held by any frame that the loop comes to.
  have hloop : ∀ (nals : List Octets) (f : H264Frame), f.Sound →
      f.maxPayloadSize = maxPayloadSize → f.currentNal = 0 → f.fuRemainingDataPtr = none →
      let g := nals.foldl (fun f nal => f.addNalu (nal.headD 0 &&& 0x1f) nal.length (some nal)) f
      g.Sound ∧ g.heldNals = f.heldNals ++ nals ∧ g.maxPayloadSize = maxPayloadSize ∧
        g.currentNal = 0 ∧ g.fuRemainingDataPtr = none := by
    intro nals
    induction nals with
    | nil =>
        intro f hsound hmax hcurrent hptr
        exact ⟨hsound, (List.append_nil _).symm, hmax, hcurrent, hptr⟩
    | cons nal nals ih =>
        intro f hsound hmax hcurrent hptr
        obtain ⟨hadded, hheld⟩ := sound_addNalu hsound (nal.headD 0 &&& 0x1f) nal
        have hrest := ih _ hadded hmax hcurrent hptr
        rw [hheld, List.append_assoc] at hrest
        exact hrest
  exact hloop nals (create maxPayloadSize) (sound_create maxPayloadSize) rfl rfl rfl

end Table

end H264Frame

end H264

end Codec

end CryptoOpal

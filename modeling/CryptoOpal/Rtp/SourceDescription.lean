import Mathlib.Data.Fintype.Card
import Mathlib.Data.List.TakeWhile
import CryptoOpal.Lib.KeyedList
import CryptoOpal.Rtp.Compound

/-!
# Source Descriptions

An RTCP packet of source descriptions: built with `StartSourceDescription` and
`AddSourceDescriptionItem`, and parsed by the case for it in `OnReceiveControl`.

Only one source survives. `StartSourceDescription` always writes to the start
of the payload, over the source before it, and the parser stops after the
first source. The items of that one source survive if their types can be told
apart, by the dictionary they are put in and from the end of the list, and if
the buffer need not grow for them: `AddSourceDescriptionItem` writes through a
pointer that it got before the buffer was moved.

## Main definitions

* `startSourceDescription`, `addSourceDescriptionItem`: The two functions.
* `readItems`, `readSources`: The loops of the parser.
* `SameSources`: The sources that were found are those that were sent.
* `Survives`: The condition.

## Theorems

* `addItems_eq`, `addItems_fits`: What is in the buffer, if it need not grow.
* `readItems_eq`: The loop over the items.
* `sourceDescription_roundTrip`: When a list of sources comes back.
-/

namespace CryptoOpal

namespace Rtp

open Lib (Octets slice overwrite bigEndian ofBigEndian setKey)
open Srtp (Stop inside bind_eq_ok)

/-- The text of a `PString`, up to the first zero. Its length is what
    `GetLength` returns. -/
def text (data : Octets) : Octets := data.takeWhile (· ≠ 0)

/-- An item of a source description. -/
structure Item where
  type : UInt8
  data : Octets
  deriving DecidableEq

/-- A source and its items. -/
structure Source where
  src : UInt32
  items : List Item
  deriving DecidableEq

/-- `RTP_Session::SourceDescription`. The dictionary is a list of its entries,
    with the type for a key. -/
structure SourceDescription where
  sourceIdentifier : UInt32
  items : List Item
  deriving DecidableEq

/-- `e_SourceDescription`. -/
def eSourceDescription : UInt8 := 202

/-- `e_END`. -/
def eEND : UInt8 := 0

namespace ControlFrame

/-- `StartSourceDescription`. -/
def startSourceDescription (frame : ControlFrame) (src : UInt32) : Except Stop ControlFrame := do
  let frame ← frame.setPayloadSize (frame.payloadSize + 4 + 1)
  let frame ← frame.setPayloadType eSourceDescription
  let count ← frame.getCount
  let frame ← frame.setCount (count + 1)
  let ptr ← frame.getPayloadPtr
  match ptr with
  | none => .error .fault
  | some payload => do
    let array ← writeAt frame.theArray payload (bigEndian 4 src.toNat)
    let array ← writeAt array (payload + 4) [eEND]
    .ok { frame with theArray := array }

/-- The item and the new end that `AddSourceDescriptionItem` writes. -/
def writeItem (array : Octets) (payload : Nat) (item : Item) : Except Stop Octets := do
  let array ← writeAt array payload [item.type]
  let array ← writeAt array (payload + 1) [UInt8.ofNat (text item.data).length]
  let array ← writeAt array (payload + 2) (text item.data)
  writeAt array (payload + 2 + (text item.data).length) [eEND]

/-- `AddSourceDescriptionItem`. If the buffer has to grow, it is moved, and
    `payload` points to where it was. -/
def addSourceDescriptionItem (frame : ControlFrame) (item : Item) : Except Stop ControlFrame := do
  let ptr ← frame.getPayloadPtr
  match ptr with
  | none => .error .fault
  | some off => do
    let payload := off + frame.payloadSize - 1
    let dataLength := (text item.data).length
    let grown ← frame.setPayloadSize (frame.payloadSize + 1 + 1 + dataLength)
    match decide (grown.theArray.length = frame.theArray.length) with
    | false => .error .fault
    | true => (writeItem grown.theArray payload item).map fun array =>
        { grown with theArray := array }

/-- The items of a source, one after another. -/
def addItems : ControlFrame → List Item → Except Stop ControlFrame
  | frame, [] => .ok frame
  | frame, item :: items => do
    let frame ← frame.addSourceDescriptionItem item
    addItems frame items

/-- Several sources, one after another. -/
def addSources : ControlFrame → List Source → Except Stop ControlFrame
  | frame, [] => .ok frame
  | frame, s :: sources => do
    let frame ← frame.startSourceDescription s.src
    let frame ← frame.addItems s.items
    addSources frame sources

end ControlFrame

/-- The loop over the items of a source. The result is the dictionary, and the
    item that the loop stopped at, unless it ran into the end of the payload. -/
def readItems (array : Octets) (size : Nat) :
    Nat → Nat → Nat → List Item → Except Stop (List Item × Option Nat)
  | 0, _, _, items => .ok (items, none)
  | fuel + 1, item, sizeCurrent, items => do
    let type ← readAt array item 1
    match decide (type.getD 0 0 = eEND) with
    | true => .ok (items, some item)
    | false => do
      let length ← readAt array (item + 1) 1
      let data ← readAt array (item + 2) (length.getD 0 0).toNat
      let items := setKey Item.type ⟨type.getD 0 0, text data⟩ items
      let sizeCurrent := sizeCurrent + ((length.getD 0 0).toNat + 2)
      match decide (size ≤ sizeCurrent) with
      | true => .ok (items, none)
      | false => readItems array size fuel (item + (length.getD 0 0).toNat + 2) sizeCurrent items

/-- The loop over the sources. -/
def readSources (array : Octets) (size : Nat) : Nat → Nat → Except Stop (List SourceDescription)
  | 0, _ => .ok []
  | count + 1, sdes => do
    let src ← readAt array sdes 4
    let found ← readItems array size size (sdes + 4) 0 []
    let description : SourceDescription := ⟨UInt32.ofNat (ofBigEndian src), found.1⟩
    match found.2 with
    | none => .ok [description]
    | some item => do
      let type ← readAt array item 1
      match decide (type.getD 0 0 = eEND) with
      | true => .ok [description]
      | false => do
        let length ← readAt array (item + 1) 1
        let next := item + (length.getD 0 0).toNat + 2
        (readSources array size count next).map (description :: ·)

/-- The sources that `OnReceiveControl` finds in the current packet, and hands
    to `OnRxSourceDescription`. -/
def ControlFrame.onSourceDescription (frame : ControlFrame) :
    Except Stop (List SourceDescription) := do
  let ptr ← frame.getPayloadPtr
  let size ← frame.getPayloadSize
  match ptr with
  | none => .ok []
  | some payload => do
    let type ← frame.getPayloadType
    let count ← frame.getCount
    match decide (frame.theArray.length < payload + size ∨ type ≠ eSourceDescription ∨
        size < count * 7) with
    | true => .ok []
    | false => readSources frame.theArray size count payload

/-- The packet with the sources, in a new frame of `sz` octets. -/
def sourcesFrame (sz : Nat) (sources : List Source) : Except Stop ControlFrame := do
  let frame ← (ControlFrame.new sz).startNewPacket
  let frame ← frame.addSources sources
  frame.endPacket

/-- What becomes of a list of sources. -/
def sourcesTrip (sz : Nat) (sources : List Source) : Except Stop (List SourceDescription) := do
  let frame ← sourcesFrame sz sources
  let octets ← frame.sent
  ControlFrame.onSourceDescription ⟨octets, 0, 0⟩

/-- An item with its text for data. -/
def Item.withText (item : Item) : Item := { item with data := text item.data }

/-- The sources that were found are those that were sent. The order in a
    dictionary is its own affair. -/
def SameSources (sources : List Source) (descriptions : List SourceDescription) : Prop :=
  List.Forall₂ (fun s d => d.sourceIdentifier = s.src ∧
    d.items.Perm (s.items.map Item.withText)) sources descriptions

/-- The octets that an item takes. -/
def itemSize (item : Item) : Nat := 2 + (text item.data).length

/-- The size of the payload for one source. -/
def sourceSize (items : List Item) : Nat := 5 + (items.map itemSize).sum

/-- One source survives if its items have types of their own, none of them
    that of the end, and fit into the buffer. An empty list leaves a packet
    without a payload. -/
def Survives (sz : Nat) : List Source → Prop
  | [] => 8 ≤ sz
  | [s] => (s.items.map Item.type).Nodup ∧ eEND ∉ s.items.map Item.type ∧
      (s.items = [] ∨ 4 + 4 * roundUp4 (sourceSize s.items) ≤ max sz 36)
  | _ => False

/-- An item in the buffer. -/
def encodeItem (item : Item) : Octets :=
  [item.type] ++ [UInt8.ofNat (text item.data).length] ++ text item.data

theorem length_encodeItem (item : Item) : (encodeItem item).length = itemSize item := by
  simp only [encodeItem, itemSize, List.length_append, List.length_singleton]

/-- The items in the buffer. -/
def encodeItems (items : List Item) : Octets := (items.map encodeItem).flatten

theorem length_encodeItems (items : List Item) :
    (encodeItems items).length = (items.map itemSize).sum := by
  induction items with
  | nil => rfl
  | cons item items ih =>
      rw [encodeItems] at ih
      rw [encodeItems, List.map_cons, List.flatten_cons, List.length_append, length_encodeItem, ih,
        List.map_cons, List.sum_cons]

/-- An item takes two octets at least. -/
theorem length_le_sum (items : List Item) : items.length ≤ (items.map itemSize).sum := by
  induction items with
  | nil => exact Nat.zero_le _
  | cons item items ih =>
      rw [List.length_cons, List.map_cons, List.sum_cons, itemSize]
      omega

section Building

variable {pre body : Octets} {b0 t : UInt8} {words k : Nat} {item : Item}

/-- The first source in a new packet. -/
theorem startSourceDescription_eq (src : UInt32) :
    ControlFrame.startSourceDescription
        ⟨pre ++ packetHeader 0x80 0 0 ++ List.replicate k 0, pre.length, 0⟩ src =
      .ok ⟨pre ++ packetHeader 0x81 eSourceDescription 2 ++
        (bigEndian 4 src.toNat ++ List.replicate (max k 32 - 4) 0), pre.length, 5⟩ := by
  have hsize : ControlFrame.setPayloadSize
      ⟨pre ++ packetHeader 0x80 0 0 ++ List.replicate k 0, pre.length, 0⟩ (0 + 4 + 1) =
        .ok ⟨pre ++ packetHeader 0x80 0 2 ++ List.replicate (max k 32) 0, pre.length, 5⟩ :=
    setPayloadSize_eq [] 5
  have hzeros : List.replicate (max k 32) (0 : UInt8) ≠ [] := by
    rw [Ne, List.replicate_eq_nil_iff]
    omega
  have hsrc := writeAt_zeros (k := max k 32) (pre ++ packetHeader 0x81 eSourceDescription 2)
    (bigEndian 4 src.toNat) (by rw [Lib.length_bigEndian]; omega)
  have hend := writeAt_zero (k := max k 32 - 4)
    (pre ++ packetHeader 0x81 eSourceDescription 2 ++ bigEndian 4 src.toNat) (by omega)
  rw [List.length_append, length_packetHeader, Lib.length_bigEndian] at hsrc
  rw [List.length_append, List.length_append, length_packetHeader, Lib.length_bigEndian] at hend
  rw [ControlFrame.startSourceDescription, hsize]
  simp only [bind, Except.bind, setPayloadType_eq, getCount_eq, setCount_eq]
  rw [show (0x80 : UInt8) &&& 0xe0 ||| UInt8.ofNat ((0x80 : UInt8).toNat % 32 + 1) = 0x81 by decide,
    getPayloadPtr_eq (by decide) hzeros]
  simp only [hsrc, eEND, hend]
  rw [List.append_assoc (pre ++ packetHeader 0x81 eSourceDescription 2)]

/-- The four writes of an item. -/
theorem writeItem_eq (a : Octets) (hroom : itemSize item < k) :
    ControlFrame.writeItem (a ++ List.replicate k 0) a.length item =
      .ok (a ++ encodeItem item ++ List.replicate (k - itemSize item) 0) := by
  unfold itemSize at hroom
  have htype := writeAt_zeros (k := k) a [item.type] (by rw [List.length_singleton]; omega)
  have hlength := writeAt_zeros (k := k - 1) (a ++ [item.type])
    [UInt8.ofNat (text item.data).length] (by rw [List.length_singleton]; omega)
  have hdata := writeAt_zeros (k := k - 1 - 1)
    (a ++ [item.type] ++ [UInt8.ofNat (text item.data).length]) (text item.data) (by omega)
  have hend := writeAt_zero (k := k - 1 - 1 - (text item.data).length)
    (a ++ [item.type] ++ [UInt8.ofNat (text item.data).length] ++ text item.data) (by omega)
  simp only [List.length_append, List.length_singleton] at htype hlength hdata hend
  have hrest : k - 1 - 1 - (text item.data).length = k - itemSize item := by
    unfold itemSize
    omega
  rw [ControlFrame.writeItem, htype]
  simp only [bind, Except.bind, hlength, hdata, eEND]
  rw [show a.length + 2 = a.length + 1 + 1 from rfl, hend, hrest, encodeItem]
  simp only [List.append_assoc]

/-- The size of a payload with one more item in it. -/
theorem setPayloadSize_item (hfits : 4 * roundUp4 (body.length + 1 + itemSize item) ≤
      body.length + k) :
    ControlFrame.setPayloadSize
        ⟨pre ++ packetHeader b0 t words ++ (body ++ List.replicate k 0), pre.length,
          body.length + 1⟩ (body.length + 1 + 1 + 1 + (text item.data).length) =
      .ok ⟨pre ++ packetHeader b0 t (roundUp4 (body.length + 1 + itemSize item) / 4) ++
        (body ++ List.replicate k 0), pre.length, body.length + 1 + itemSize item⟩ := by
  have hsize : body.length + 1 + 1 + 1 + (text item.data).length =
      body.length + 1 + itemSize item := by
    unfold itemSize
    omega
  rw [hsize, setPayloadSize_eq, Nat.max_eq_left (by omega)]

/-- An item that fits is written over the end of the ones before it. -/
theorem addItem_eq (hwords : words % 65536 ≠ 0) (hbody : body ≠ [])
    (hfits : 4 * roundUp4 (body.length + 1 + itemSize item) ≤ body.length + k) :
    ControlFrame.addSourceDescriptionItem
        ⟨pre ++ packetHeader b0 t words ++ (body ++ List.replicate k 0), pre.length,
          body.length + 1⟩ item =
      .ok ⟨pre ++ packetHeader b0 t (roundUp4 (body.length + 1 + itemSize item) / 4) ++
        (body ++ encodeItem item ++ List.replicate (k - itemSize item) 0), pre.length,
          (body ++ encodeItem item).length + 1⟩ := by
  have hle := le_roundUp4 (body.length + 1 + itemSize item)
  have hne : body ++ List.replicate k 0 ≠ [] := fun h => hbody (List.append_eq_nil_iff.mp h).1
  have hroom : itemSize item < k := by omega
  have hwrite := writeItem_eq
    (pre ++ packetHeader b0 t (roundUp4 (body.length + 1 + itemSize item) / 4) ++ body) hroom
  rw [List.append_assoc _ body, List.length_append, List.length_append, length_packetHeader]
    at hwrite
  rw [ControlFrame.addSourceDescriptionItem, getPayloadPtr_eq hwords hne]
  simp only [bind, Except.bind, setPayloadSize_item hfits]
  rw [decide_eq_true (by simp only [List.length_append, length_packetHeader]),
    show pre.length + 4 + (body.length + 1) - 1 = pre.length + 4 + body.length by omega]
  rw [hwrite, List.append_assoc _ body, List.append_assoc _ (body ++ encodeItem item),
    List.length_append, length_encodeItem, Nat.add_right_comm]
  rfl

/-- An item is only added if it fits. -/
theorem addItem_fits {frame : ControlFrame} (hbody : body ≠ [])
    (h : ControlFrame.addSourceDescriptionItem
        ⟨pre ++ packetHeader b0 t words ++ (body ++ List.replicate k 0), pre.length,
          body.length + 1⟩ item = .ok frame) :
    words % 65536 ≠ 0 ∧ 4 * roundUp4 (body.length + 1 + itemSize item) ≤ body.length + k := by
  have hne : body ++ List.replicate k 0 ≠ [] := fun h => hbody (List.append_eq_nil_iff.mp h).1
  have hsize : body.length + 1 + 1 + 1 + (text item.data).length =
      body.length + 1 + itemSize item := by
    unfold itemSize
    omega
  by_cases hwords : words % 65536 = 0
  · rw [ControlFrame.addSourceDescriptionItem, getPayloadPtr_none hwords] at h
    exact absurd h (by simp only [bind, Except.bind, reduceCtorEq, not_false_eq_true])
  · refine ⟨hwords, ?_⟩
    by_contra hfits
    rw [ControlFrame.addSourceDescriptionItem, getPayloadPtr_eq hwords hne] at h
    simp only [bind, Except.bind, hsize, setPayloadSize_eq] at h
    -- The buffer has grown.
    rw [decide_eq_false (by
      simp only [List.length_append, length_packetHeader, List.length_replicate]; omega)] at h
    exact absurd h (by simp only [reduceCtorEq, not_false_eq_true])

theorem roundUp4_mono {m n : Nat} (h : m ≤ n) : roundUp4 m ≤ roundUp4 n := by
  unfold roundUp4
  omega

/-- Items are only added if all of them fit. -/
theorem addItems_fits (items : List Item) (body : Octets) (words k : Nat) {frame : ControlFrame}
    (hbody : body ≠ [])
    (h : ControlFrame.addItems
        ⟨pre ++ packetHeader b0 t words ++ (body ++ List.replicate k 0), pre.length,
          body.length + 1⟩ items = .ok frame) :
    items = [] ∨
      4 * roundUp4 (body.length + 1 + (items.map itemSize).sum) ≤ body.length + k := by
  induction items generalizing body words k with
  | nil => exact Or.inl rfl
  | cons item items ih =>
      rw [ControlFrame.addItems, bind_eq_ok] at h
      rcases h with ⟨next, hitem, hitems⟩
      rcases addItem_fits hbody hitem with ⟨hwords, hfits⟩
      have hle := le_roundUp4 (body.length + 1 + itemSize item)
      rw [addItem_eq hwords hbody hfits, Except.ok.injEq] at hitem
      rw [← hitem] at hitems
      have hrest := ih (body ++ encodeItem item) _ (k - itemSize item)
        (fun hnil => hbody (List.append_eq_nil_iff.mp hnil).1) hitems
      right
      rw [List.map_cons, List.sum_cons, ← Nat.add_assoc]
      rcases hrest with rfl | hrest
      · exact hfits
      · rw [List.length_append, length_encodeItem, Nat.add_right_comm body.length] at hrest
        omega

/-- Items that fit are written one after another, and the size of the payload
    is the one in the header. -/
theorem addItems_eq (items : List Item) (body : Octets) (k : Nat) (hbody : body ≠ [])
    (hlen : body.length + 1 + (items.map itemSize).sum ≤ 262140)
    (hfits : items = [] ∨
      4 * roundUp4 (body.length + 1 + (items.map itemSize).sum) ≤ body.length + k) :
    ControlFrame.addItems
        ⟨pre ++ packetHeader b0 t (roundUp4 (body.length + 1) / 4) ++
          (body ++ List.replicate k 0), pre.length, body.length + 1⟩ items =
      .ok ⟨pre ++ packetHeader b0 t (roundUp4 ((body ++ encodeItems items).length + 1) / 4) ++
        (body ++ encodeItems items ++ List.replicate (k - (items.map itemSize).sum) 0),
          pre.length, (body ++ encodeItems items).length + 1⟩ := by
  induction items generalizing body k with
  | nil =>
      rw [ControlFrame.addItems, encodeItems, List.map_nil, List.map_nil, List.flatten_nil,
        List.append_nil, List.sum_nil, Nat.sub_zero]
  | cons item items ih =>
      rw [List.map_cons, List.sum_cons, ← Nat.add_assoc] at hlen hfits
      replace hfits := hfits.resolve_left (List.cons_ne_nil item items)
      have hmono := roundUp4_mono (Nat.le_add_right (body.length + 1 + itemSize item)
        (items.map itemSize).sum)
      have hle := le_roundUp4 (body.length + 1 + itemSize item)
      have hwords : roundUp4 (body.length + 1) / 4 % 65536 ≠ 0 := by
        unfold roundUp4
        omega
      have hsize : (body ++ encodeItem item).length + 1 = body.length + 1 + itemSize item := by
        rw [List.length_append, length_encodeItem, Nat.add_right_comm]
      have hnext := ih (body ++ encodeItem item) (k - itemSize item)
        (fun hnil => hbody (List.append_eq_nil_iff.mp hnil).1)
        (by rw [hsize]; exact hlen) (Or.inr (by rw [hsize]; omega))
      rw [ControlFrame.addItems, addItem_eq hwords hbody (by omega), ← hsize]
      simp only [bind, Except.bind, hnext]
      simp only [encodeItems, List.map_cons, List.flatten_cons, List.sum_cons, List.append_assoc,
        Nat.sub_sub]

end Building

section Parsing

variable {array : Octets} {size : Nat}

/-- One round of the loop over the items of a source. -/
theorem readItems_item (a rest : Octets) (item : Item) (found : List Item) (fuel sizeCurrent : Nat)
    (hlen : (text item.data).length ≤ 255) (hend : item.type ≠ eEND)
    (hsize : sizeCurrent + itemSize item < size) :
    readItems (a ++ encodeItem item ++ rest) size (fuel + 1) a.length sizeCurrent found =
      readItems (a ++ encodeItem item ++ rest) size fuel (a ++ encodeItem item).length
        (sizeCurrent + itemSize item) (setKey Item.type item.withText found) := by
  have hoctet : (UInt8.ofNat (text item.data).length).toNat = (text item.data).length := by
    rw [UInt8.toNat_ofNat']
    omega
  have htext : text (text item.data) = text item.data := List.takeWhile_idem
  have htype := readAt_middle a [item.type]
    ([UInt8.ofNat (text item.data).length] ++ text item.data ++ rest)
  have hlength := readAt_middle (a ++ [item.type]) [UInt8.ofNat (text item.data).length]
    (text item.data ++ rest)
  have hdata := readAt_middle (a ++ [item.type] ++ [UInt8.ofNat (text item.data).length])
    (text item.data) rest
  simp only [List.length_append, List.length_singleton, List.append_assoc] at htype hlength hdata
  have hnext : a.length + (text item.data).length + 2 = (a ++ encodeItem item).length := by
    rw [List.length_append, length_encodeItem, itemSize]
    omega
  have hsize' : ¬ size ≤ sizeCurrent + ((text item.data).length + 2) := by
    unfold itemSize at hsize
    omega
  have hparts : a ++ encodeItem item ++ rest = a ++ ([item.type] ++
      ([UInt8.ofNat (text item.data).length] ++ (text item.data ++ rest))) := by
    simp only [encodeItem, List.append_assoc]
  rw [readItems, hparts, htype]
  simp only [bind, Except.bind, List.getD_cons_zero, decide_eq_false hend, hlength, hoctet]
  rw [show a.length + 2 = a.length + 1 + 1 from rfl, hdata]
  simp only [decide_eq_false hsize', hnext, itemSize, Item.withText]
  rw [Nat.add_comm 2, htext]

/-- The loop over the items of a source finds them, and stops at the end. -/
theorem readItems_eq (items : List Item) (a rest : Octets) (found : List Item)
    (fuel sizeCurrent : Nat) (hlen : ∀ item ∈ items, (text item.data).length ≤ 255)
    (hnodup : (found.map Item.type ++ items.map Item.type).Nodup)
    (hend : eEND ∉ items.map Item.type)
    (hsize : sizeCurrent + (items.map itemSize).sum < size) (hfuel : items.length < fuel) :
    readItems (a ++ encodeItems items ++ (eEND :: rest)) size fuel a.length sizeCurrent found =
      .ok (found ++ items.map Item.withText, some (a ++ encodeItems items).length) := by
  induction items generalizing a found fuel sizeCurrent with
  | nil =>
      cases fuel with
      | zero => exact absurd hfuel (Nat.not_lt_zero _)
      | succ fuel =>
          have htype := readAt_middle a [eEND] rest
          rw [List.append_assoc, List.singleton_append, List.length_singleton] at htype
          rw [readItems, encodeItems, List.map_nil, List.flatten_nil, List.append_nil, htype,
            List.map_nil, List.append_nil]
          rfl
  | cons item items ih =>
      cases fuel with
      | zero => exact absurd hfuel (Nat.not_lt_zero _)
      | succ fuel =>
          rw [List.map_cons, List.mem_cons, not_or] at hend
          rw [List.map_cons, List.sum_cons, ← Nat.add_assoc] at hsize
          rw [List.length_cons] at hfuel
          have hparts : a ++ encodeItems (item :: items) ++ (eEND :: rest) =
              a ++ encodeItem item ++ (encodeItems items ++ (eEND :: rest)) := by
            simp only [encodeItems, List.map_cons, List.flatten_cons, List.append_assoc]
          have hnew : item.withText.type ∉ found.map Item.type := by
            intro hmem
            rw [List.map_cons, List.nodup_append] at hnodup
            exact hnodup.2.2 _ hmem _ List.mem_cons_self rfl
          have hnext := ih (a ++ encodeItem item) (found ++ [item.withText]) fuel
            (sizeCurrent + itemSize item) (fun q hq => hlen q (List.mem_cons_of_mem item hq))
            (by rw [List.map_append, List.map_singleton, List.append_assoc]; exact hnodup) hend.2
            hsize (Nat.lt_of_succ_lt_succ hfuel)
          rw [hparts, readItems_item a _ item found fuel sizeCurrent
            (hlen item List.mem_cons_self) (fun he => hend.1 he.symm) (by omega),
            Lib.setKey_of_notMem hnew, ← List.append_assoc, hnext]
          simp only [encodeItems, List.map_cons, List.flatten_cons, List.append_assoc,
            List.singleton_append]

/-- A dictionary of items has one entry for a type, and none for the end. -/
structure Distinct (items : List Item) : Prop where
  nodup : (items.map Item.type).Nodup
  noEnd : eEND ∉ items.map Item.type

theorem Distinct.setKey {items : List Item} (h : Distinct items) {item : Item}
    (hitem : item.type ≠ eEND) : Distinct (setKey Item.type item items) := by
  refine ⟨Lib.nodup_setKey h.nodup, fun hend => ?_⟩
  rcases Lib.key_of_mem_setKey hend with he | he
  · exact hitem he.symm
  · exact h.noEnd he

/-- What the loop over the items finds has distinct types, and where it stops
    without running into the end of the payload there is an end. -/
theorem readItems_shape (fuel item sizeCurrent : Nat) (found : List Item)
    {r : List Item × Option Nat} (hfound : Distinct found)
    (h : readItems array size fuel item sizeCurrent found = .ok r) :
    Distinct r.1 ∧ ∀ last, r.2 = some last → ∃ b, readAt array last 1 = .ok b ∧
      b.getD 0 0 = eEND := by
  induction fuel generalizing item sizeCurrent found with
  | zero =>
      rw [readItems, Except.ok.injEq] at h
      rw [← h]
      exact ⟨hfound, fun last hlast => absurd hlast (Option.some_ne_none last).symm⟩
  | succ fuel ih =>
      rw [readItems, bind_eq_ok] at h
      rcases h with ⟨b, htype, h⟩
      by_cases hend : b.getD 0 0 = eEND
      · rw [decide_eq_true hend, Except.ok.injEq] at h
        rw [← h]
        refine ⟨hfound, fun last hlast => ⟨b, ?_, hend⟩⟩
        rw [← Option.some.inj hlast]
        exact htype
      · rw [decide_eq_false hend] at h
        simp only [bind_eq_ok] at h
        rcases h with ⟨length, -, data, -, h⟩
        have hnext : Distinct (Lib.setKey Item.type ⟨b.getD 0 0, text data⟩ found) :=
          hfound.setKey hend
        by_cases hover : size ≤ sizeCurrent + ((length.getD 0 0).toNat + 2)
        · rw [decide_eq_true hover, Except.ok.injEq] at h
          rw [← h]
          exact ⟨hnext, fun last hlast => absurd hlast (Option.some_ne_none last).symm⟩
        · rw [decide_eq_false hover] at h
          exact ih _ _ _ hnext h

/-- The parser finds one source at most. -/
theorem readSources_shape (count sdes : Nat) {descriptions : List SourceDescription}
    (h : readSources array size count sdes = .ok descriptions) :
    descriptions = [] ∨ ∃ d, descriptions = [d] ∧ Distinct d.items := by
  cases count with
  | zero => exact Or.inl (Except.ok.inj h).symm
  | succ count =>
      simp only [readSources, bind_eq_ok] at h
      rcases h with ⟨src, -, found, hfound, h⟩
      rcases readItems_shape size (sdes + 4) 0 [] ⟨List.nodup_nil, List.not_mem_nil⟩ hfound with
        ⟨hdistinct, hlast⟩
      right
      cases hitem : found.2 with
      | none =>
          rw [hitem, Except.ok.injEq] at h
          exact ⟨_, h.symm, hdistinct⟩
      | some item =>
          rcases hlast item hitem with ⟨b, htype, hend⟩
          rw [hitem] at h
          simp only [htype, bind, Except.bind, hend, decide_true, Except.ok.injEq] at h
          exact ⟨_, h.symm, hdistinct⟩

theorem onSourceDescription_shape {frame : ControlFrame} {descriptions : List SourceDescription}
    (h : frame.onSourceDescription = .ok descriptions) :
    descriptions = [] ∨ ∃ d, descriptions = [d] ∧ Distinct d.items := by
  simp only [ControlFrame.onSourceDescription, bind_eq_ok] at h
  rcases h with ⟨ptr, -, size, -, h⟩
  cases ptr with
  | none => exact Or.inl (Except.ok.inj h).symm
  | some payload =>
      simp only [bind_eq_ok] at h
      rcases h with ⟨type, -, count, -, h⟩
      by_cases hrefuse : frame.theArray.length < payload + size ∨ type ≠ eSourceDescription ∨
          size < count * 7
      · rw [decide_eq_true hrefuse] at h
        exact Or.inl (Except.ok.inj h).symm
      · rw [decide_eq_false hrefuse] at h
        exact readSources_shape count payload h

/-- The loop over the sources, on one source. -/
theorem readSources_eq (a rest : Octets) (src : UInt32) (items : List Item)
    (hlen : ∀ item ∈ items, (text item.data).length ≤ 255)
    (hnodup : (items.map Item.type).Nodup) (hend : eEND ∉ items.map Item.type)
    (hsize : (items.map itemSize).sum < size) (count : Nat) :
    readSources (a ++ (bigEndian 4 src.toNat ++ encodeItems items ++ (eEND :: rest))) size
        (count + 1) a.length =
      .ok [⟨src, items.map Item.withText⟩] := by
  have hcount := length_le_sum items
  have hsrc := readAt_middle a (bigEndian 4 src.toNat) (encodeItems items ++ (eEND :: rest))
  have hitems := readItems_eq items (a ++ bigEndian 4 src.toNat) rest [] size 0 hlen hnodup hend
    (show 0 + (items.map itemSize).sum < size by omega) (by omega)
  have hlast := readAt_middle (a ++ bigEndian 4 src.toNat ++ encodeItems items) [eEND] rest
  have hword : UInt32.ofNat (ofBigEndian (bigEndian 4 src.toNat)) = src := by
    rw [Lib.ofBigEndian_bigEndian, Nat.mod_eq_of_lt (show src.toNat < 256 ^ 4 from src.toNat_lt),
      UInt32.ofNat_toNat]
  simp only [List.append_assoc, List.singleton_append, List.nil_append, List.length_singleton,
    Lib.length_bigEndian] at hsrc hitems hlast
  rw [readSources, List.append_assoc (bigEndian 4 src.toNat), hsrc]
  rw [List.length_append, Lib.length_bigEndian] at hitems
  simp only [bind, Except.bind, hitems, hlast, List.getD_cons_zero, decide_true, hword]

/-- The parser finds the source that was written. -/
theorem onSourceDescription_eq (pre : Octets) (src : UInt32) (items : List Item) (pad : Nat)
    (hlen : ∀ item ∈ items, (text item.data).length ≤ 255)
    (hnodup : (items.map Item.type).Nodup) (hend : eEND ∉ items.map Item.type)
    (hshort : sourceSize items ≤ 262140)
    (hpad : sourceSize items + pad = roundUp4 (sourceSize items)) :
    ControlFrame.onSourceDescription
        ⟨pre ++ packetHeader 0x81 eSourceDescription (roundUp4 (sourceSize items) / 4) ++
          (bigEndian 4 src.toNat ++ encodeItems items ++ (eEND :: List.replicate pad 0)),
          pre.length, 0⟩ =
      .ok [⟨src, items.map Item.withText⟩] := by
  have hfive : 5 ≤ sourceSize items := Nat.le_add_right 5 _
  have hitems := length_encodeItems items
  have hcount := length_le_sum items
  have hwords : roundUp4 (sourceSize items) / 4 % 65536 = roundUp4 (sourceSize items) / 4 := by
    unfold roundUp4
    omega
  have hne : roundUp4 (sourceSize items) / 4 % 65536 ≠ 0 := by
    rw [hwords]
    unfold roundUp4
    omega
  have hrest : bigEndian 4 src.toNat ++ encodeItems items ++ (eEND :: List.replicate pad 0) ≠ [] :=
    List.append_ne_nil_of_right_ne_nil _ (List.cons_ne_nil _ _)
  have hsize : (pre ++ packetHeader 0x81 eSourceDescription (roundUp4 (sourceSize items) / 4) ++
      (bigEndian 4 src.toNat ++ encodeItems items ++ (eEND :: List.replicate pad 0))).length =
        pre.length + 4 + roundUp4 (sourceSize items) := by
    simp only [List.length_append, length_packetHeader, Lib.length_bigEndian, List.length_cons,
      List.length_replicate, hitems]
    rw [← hpad, sourceSize]
    omega
  have hone : (0x81 : UInt8).toNat % 32 = 1 := rfl
  have haccept : ¬ ((pre ++
      packetHeader 0x81 eSourceDescription (roundUp4 (sourceSize items) / 4) ++
        (bigEndian 4 src.toNat ++ encodeItems items ++ (eEND :: List.replicate pad 0))).length <
          pre.length + 4 + roundUp4 (sourceSize items) ∨
      eSourceDescription ≠ eSourceDescription ∨ roundUp4 (sourceSize items) < 1 * 7) := by
    rw [hsize]
    unfold roundUp4
    simp only [ne_eq, not_true_eq_false, false_or]
    omega
  rw [ControlFrame.onSourceDescription, getPayloadPtr_eq hne hrest]
  simp only [bind, Except.bind, getPayloadSize_eq, getPayloadType_eq, getCount_eq, hwords,
    four_mul_div, hone, decide_eq_false haccept]
  have hread := readSources_eq
    (pre ++ packetHeader 0x81 eSourceDescription (roundUp4 (sourceSize items) / 4))
    (List.replicate pad 0) src items hlen hnodup hend
    (show (items.map itemSize).sum < roundUp4 (sourceSize items) by
      rw [← hpad, sourceSize]; omega) 0
  rwa [List.length_append, length_packetHeader] at hread

end Parsing

section Trip

variable {sz : Nat} {s : Source}

/-- Items with types of their own are not too many for the size of a payload. -/
theorem sourceSize_le {items : List Item} (hlen : ∀ item ∈ items, (text item.data).length ≤ 255)
    (hnodup : (items.map Item.type).Nodup) : sourceSize items ≤ 262140 := by
  have hcount : items.length ≤ 256 := by
    have hfin : ((items.map Item.type).map UInt8.toFin).Nodup :=
      hnodup.map fun a b h => UInt8.toFin_inj.mp h
    have hcard := hfin.length_le_card
    rwa [List.length_map, List.length_map, Fintype.card_fin] at hcard
  have hsum : (items.map itemSize).sum ≤ items.length * 257 := by
    clear hcount hnodup
    induction items with
    | nil => exact Nat.zero_le _
    | cons item items ih =>
        have hitem := hlen item List.mem_cons_self
        have hitems := ih fun q hq => hlen q (List.mem_cons_of_mem item hq)
        rw [List.map_cons, List.sum_cons, List.length_cons, itemSize]
        omega
  unfold sourceSize
  omega

/-- A new frame with the start of a source in it. -/
theorem addSources_one : sourcesFrame sz [s] = (do
      let frame ← ControlFrame.addItems ⟨[] ++ packetHeader 0x81 eSourceDescription 2 ++
        (bigEndian 4 s.src.toNat ++ List.replicate (max (sz - 4) 32 - 4) 0), 0, 5⟩ s.items
      frame.endPacket) := by
  have hstart := @startNewPacket_eq [] 0 sz
  have hsource := @startSourceDescription_eq [] (sz - 4) s.src
  rw [List.nil_append, List.length_nil] at hstart
  rw [List.length_nil] at hsource
  rw [sourcesFrame, ControlFrame.new, hstart]
  simp only [bind, Except.bind, ControlFrame.addSources, hsource]
  cases ControlFrame.addItems ⟨[] ++ packetHeader 0x81 eSourceDescription 2 ++
    (bigEndian 4 s.src.toNat ++ List.replicate (max (sz - 4) 32 - 4) 0), 0, 5⟩ s.items <;> rfl

/-- The packet of one source is only built if its items fit. -/
theorem sourcesFrame_fits {frame : ControlFrame} (h : sourcesFrame sz [s] = .ok frame) :
    s.items = [] ∨ 4 + 4 * roundUp4 (sourceSize s.items) ≤ max sz 36 := by
  rw [addSources_one, bind_eq_ok] at h
  rcases h with ⟨next, hitems, -⟩
  have hsrc : bigEndian 4 s.src.toNat ≠ [] := List.cons_ne_nil _ _
  have hlen : (bigEndian 4 s.src.toNat).length = 4 := Lib.length_bigEndian 4 _
  rcases addItems_fits s.items (bigEndian 4 s.src.toNat) 2 (max (sz - 4) 32 - 4) hsrc hitems with
    hnil | hfits
  · exact Or.inl hnil
  · right
    rw [hlen, show 4 + 1 + (s.items.map itemSize).sum = sourceSize s.items from rfl] at hfits
    omega

/-- The packet of one source that fits. -/
theorem sourcesFrame_eq (hshort : sourceSize s.items ≤ 262140)
    (hfits : s.items = [] ∨ 4 + 4 * roundUp4 (sourceSize s.items) ≤ max sz 36) :
    ∃ k, 4 ≤ k ∧ sourcesFrame sz [s] =
      (let octets := packetHeader 0x81 eSourceDescription (roundUp4 (sourceSize s.items) / 4) ++
        (bigEndian 4 s.src.toNat ++ encodeItems s.items ++ [eEND] ++
          List.replicate (roundUp4 (sourceSize s.items) - sourceSize s.items) 0)
      .ok ⟨octets ++ List.replicate k 0, octets.length, 0⟩) := by
  have hsrc : bigEndian 4 s.src.toNat ≠ [] := List.cons_ne_nil _ _
  have hlen : (bigEndian 4 s.src.toNat).length = 4 := Lib.length_bigEndian 4 _
  have hsize : 4 + 1 + (s.items.map itemSize).sum = sourceSize s.items := rfl
  have hle := le_roundUp4 (sourceSize s.items)
  have hlt := roundUp4_lt (sourceSize s.items)
  -- There is room for the padding, and for a size behind it.
  have hroom : (s.items.map itemSize).sum + (roundUp4 (sourceSize s.items) -
      sourceSize s.items) + 5 ≤ max (sz - 4) 32 - 4 := by
    rcases hfits with hnil | hfits
    · rw [hnil] at hlt hle ⊢
      rw [show sourceSize [] = 5 from rfl] at hlt hle ⊢
      rw [List.map_nil, List.sum_nil]
      omega
    · omega
  have hitems := @addItems_eq [] 0x81 eSourceDescription s.items (bigEndian 4 s.src.toNat)
    (max (sz - 4) 32 - 4) hsrc (by rw [hlen]; exact hshort)
    (by rw [hlen, hsize]; exact hfits.imp_right fun h => by omega)
  have hpayload : (bigEndian 4 s.src.toNat ++ encodeItems s.items ++ [eEND]).length =
      sourceSize s.items := by
    rw [List.length_append, List.length_append, hlen, length_encodeItems, List.length_singleton,
      ← hsize]
    omega
  have hend := (endPayload_eq_iff (bigEndian 4 s.src.toNat ++ encodeItems s.items ++ [eEND])).mpr
    (Or.inr (by rw [List.getLast?_concat, eEND]))
  have hpacket := @endPacket_eq [] 0x81 eSourceDescription (roundUp4 (sourceSize s.items) / 4)
    (max (sz - 4) 32 - 4 - (s.items.map itemSize).sum - 1)
    (bigEndian 4 s.src.toNat ++ encodeItems s.items ++ [eEND]) (by rw [hpayload]; omega)
  have hbody : (bigEndian 4 s.src.toNat ++ encodeItems s.items).length + 1 =
      sourceSize s.items := by
    rw [← hpayload, @List.length_append _ _ [eEND], List.length_singleton]
  have hzeros : List.replicate (max (sz - 4) 32 - 4 - (s.items.map itemSize).sum) (0 : UInt8) =
      [eEND] ++ List.replicate (max (sz - 4) 32 - 4 - (s.items.map itemSize).sum - 1) 0 := by
    rw [eEND, List.singleton_append, ← List.replicate_succ]
    congr 1
    omega
  rw [hbody, hzeros, ← List.append_assoc _ [eEND], hlen,
    show roundUp4 (4 + 1) / 4 = 2 from rfl] at hitems
  rw [hend, hpayload, List.nil_append] at hpacket
  refine ⟨max (sz - 4) 32 - 4 - (s.items.map itemSize).sum - 1 -
    (roundUp4 (sourceSize s.items) - sourceSize s.items), by omega, ?_⟩
  rw [addSources_one]
  exact bind_eq_ok.mpr ⟨_, hitems, hpacket⟩

/-- Without a source, the packet has no payload. -/
theorem sourcesTrip_nil : sourcesTrip sz [] = if 8 ≤ sz then .ok [] else .error .fault := by
  have hstart := @startNewPacket_eq [] 0 sz
  have hend := @endPacket_eq [] 0x80 0 0 (sz - 4) [] (Nat.zero_le _)
  have hparse : ControlFrame.onSourceDescription
      ⟨[] ++ packetHeader 0x80 0 0 ++ [], ([] : Octets).length, 0⟩ = .ok [] := by
    rw [ControlFrame.onSourceDescription, getPayloadPtr_none rfl, getPayloadSize_eq]
    rfl
  rw [List.nil_append, List.length_nil] at hstart
  have hframe : sourcesFrame sz [] =
      .ok ⟨packetHeader 0x80 0 0 ++ List.replicate (sz - 4) 0,
        (packetHeader 0x80 0 0).length, 0⟩ := by
    rw [sourcesFrame, ControlFrame.new, hstart]
    exact hend
  rw [sourcesTrip, hframe]
  simp only [bind, Except.bind, sent_eq]
  by_cases hroom : 8 ≤ sz
  · rw [if_pos (show 4 ≤ sz - 4 by omega), if_pos hroom]
    exact hparse
  · rw [if_neg (show ¬ 4 ≤ sz - 4 by omega), if_neg hroom]

/-- One source that fits comes back. -/
theorem sourcesTrip_one (hlen : ∀ item ∈ s.items, (text item.data).length ≤ 255)
    (hnodup : (s.items.map Item.type).Nodup) (hend : eEND ∉ s.items.map Item.type)
    (hfits : s.items = [] ∨ 4 + 4 * roundUp4 (sourceSize s.items) ≤ max sz 36) :
    sourcesTrip sz [s] = .ok [⟨s.src, s.items.map Item.withText⟩] := by
  have hshort := sourceSize_le hlen hnodup
  have hle := le_roundUp4 (sourceSize s.items)
  rcases sourcesFrame_eq hshort hfits with ⟨k, hk, hframe⟩
  have hparse := onSourceDescription_eq [] s.src s.items
    (roundUp4 (sourceSize s.items) - sourceSize s.items) hlen hnodup hend hshort
    (Nat.add_sub_cancel' hle)
  rw [sourcesTrip, hframe]
  simp only [bind, Except.bind, sent_eq, if_pos hk]
  rw [List.append_assoc _ [eEND]]
  exact hparse

end Trip

/-- No more than one description is found. -/
theorem sourcesTrip_length {sz : Nat} {sources : List Source}
    {descriptions : List SourceDescription} (h : sourcesTrip sz sources = .ok descriptions) : descriptions.length ≤ 1 := by
  simp only [sourcesTrip, bind_eq_ok] at h
  rcases h with ⟨frame, -, octets, -, hparse⟩
  rcases onSourceDescription_shape hparse with rfl | ⟨d, rfl, -⟩
  · exact Nat.zero_le 1
  · exact Nat.le_refl 1

/-- A list of sources comes back exactly if there is one of them at most, with
    items that have types of their own and fit into the buffer. -/
theorem sourceDescription_roundTrip (sz : Nat) (sources : List Source)
    (hlen : ∀ s ∈ sources, ∀ item ∈ s.items, (text item.data).length ≤ 255) :
    (∃ descriptions, sourcesTrip sz sources = .ok descriptions ∧
      SameSources sources descriptions) ↔ Survives sz sources := by
  constructor
  · rintro ⟨descriptions, htrip, hsame⟩
    have htrip' := htrip
    simp only [sourcesTrip, bind_eq_ok] at htrip'
    rcases htrip' with ⟨frame, hframe, octets, -, hparse⟩
    have hshape := onSourceDescription_shape hparse
    have hcount := hsame.length_eq
    have hone := sourcesTrip_length htrip
    match sources with
    | [] =>
        by_contra hroom
        rw [sourcesTrip_nil, if_neg (show ¬ 8 ≤ sz from hroom)] at htrip
        exact absurd htrip (by simp only [reduceCtorEq, not_false_eq_true])
    | [s] =>
        rcases hshape with rfl | ⟨d, rfl, hdistinct⟩
        · exact absurd hcount (by simp only [List.length_cons, List.length_nil]; omega)
        · have hperm : (d.items.map Item.type).Perm (s.items.map Item.type) := by
            have hitems := (List.forall₂_cons.mp hsame).1.2.map Item.type
            rwa [List.map_map] at hitems
          refine ⟨hperm.nodup_iff.mp hdistinct.nodup, fun h => ?_, sourcesFrame_fits hframe⟩
          exact hdistinct.noEnd (hperm.mem_iff.mpr h)
    | s :: s' :: rest =>
        simp only [List.length_cons] at hcount
        omega
  · intro h
    match sources, h with
    | [], hroom =>
        exact ⟨[], by rw [sourcesTrip_nil, if_pos (show 8 ≤ sz from hroom)], List.Forall₂.nil⟩
    | [s], ⟨hnodup, hend, hfits⟩ =>
        exact ⟨_, sourcesTrip_one (hlen s List.mem_cons_self) hnodup hend hfits,
          List.Forall₂.cons ⟨rfl, List.Perm.refl _⟩ List.Forall₂.nil⟩

section Samples

/-- A source with a name and a tool. -/
def sampleSource (src : UInt32) : Source :=
  ⟨src, [⟨1, [0x61, 0x40, 0x62]⟩, ⟨6, [0x6f, 0x70, 0x61, 0x6c]⟩]⟩

theorem sourceDescription_roundTrip_one :
    (∃ descriptions, sourcesTrip 2048 [sampleSource 1] = .ok descriptions ∧
      SameSources [sampleSource 1] descriptions) ↔ Survives 2048 [sampleSource 1] :=
  sourceDescription_roundTrip 2048 [sampleSource 1] (by decide)

/-- The second source is written over the first. -/
theorem sourceDescription_loses_source :
    ([sampleSource 1, sampleSource 2].length ≤ 31 ∧
      ∀ s ∈ [sampleSource 1, sampleSource 2], ∀ item ∈ s.items, (text item.data).length ≤ 255) ∧
      ¬ ∃ descriptions, sourcesTrip 2048 [sampleSource 1, sampleSource 2] = .ok descriptions ∧
        SameSources [sampleSource 1, sampleSource 2] descriptions := by
  refine ⟨by decide, ?_⟩
  rintro ⟨descriptions, htrip, hsame⟩
  have hone := sourcesTrip_length htrip
  rw [← hsame.length_eq] at hone
  exact absurd hone (by decide)

end Samples

end Rtp

end CryptoOpal

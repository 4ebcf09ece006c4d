import CryptoOpal.Lib.Transducer
import CryptoOpal.Rtp.Buffer
import CryptoOpal.Rtp.PacketSize

/-!
# Setting the Parts of an RTP Header

`SetContribSource`, `SetExtension`, `SetExtensionType`, `SetExtensionSizeDWORDs`
and `SetPayloadSize` of `RTP_DataFrame`, in any order.

A setter that makes the header longer has to move what is behind it. Only
`SetContribSource` does, and it moves the payload but no header extension. It
takes the old place of the payload before it lets the buffer grow, and the old
buffer is given back then. `SetExtension` changes the X bit and not the size of
the header. So a frame stays as it is expected to as long as the header is
complete before there is an extension or a payload (`KeepsPlaces`).

An access outside of the buffer, or to a buffer that was given back, is `none`.

## Main definitions

* `RtpFrame`: `RTP_DataFrame`.
* `HeaderCall`: The setters.
* `Consistent`: The size of the header is that of its parts.
* `Preserves`: What a setter does not set is there as before.
* `KeepsPlaces`: The condition on a frame and a setter.

## Theorems

* `addContribSource_spec`: A contributing source at the end of the list.
* `setExtensionSizeDWORDs_spec`: The size of an extension.
* `apply_keeps`: One setter.
* `setters_consistent`: Setters in any order.
* `received_as_built`: The receiver of what they put together.
-/

namespace CryptoOpal

namespace Rtp

open Lib (Octets overwrite slice bigEndian Step stepAt run Along)

/-- `RTP_DataFrame`. -/
structure RtpFrame where
  theArray : Octets
  sizes : PacketSizes
  deriving DecidableEq

namespace RtpFrame

/-- The octet at a position; a buffer is filled up with zeros. -/
def octet (f : RtpFrame) (i : Nat) : UInt8 := f.theArray.getD i 0

/-- `RTP_DataFrame(payloadSize, bufferSize)`. -/
def new (payloadSize bufferSize : Nat) : RtpFrame :=
  { theArray := 0x80 :: 0x7f ::
      List.replicate (max bufferSize (rtpMinHeader + payloadSize) - 2) 0
    sizes := ⟨rtpMinHeader, payloadSize, 0⟩ }

/-- `m_headerSize + m_payloadSize + m_paddingSize`. -/
def total (f : RtpFrame) : Int :=
  f.sizes.headerSize + f.sizes.payloadSize + f.sizes.paddingSize

/-- `m_headerSize`, set. -/
def withHeaderSize (f : RtpFrame) (headerSize : Int) : RtpFrame :=
  ⟨f.theArray, ⟨headerSize, f.sizes.payloadSize, f.sizes.paddingSize⟩⟩

/-- `SetMinSize(m_headerSize+m_payloadSize+m_paddingSize)`. -/
def grow (f : RtpFrame) : RtpFrame := { f with theArray := setMinSize f.theArray f.total.toNat }

/-- Write octets from a position on. -/
def put (f : RtpFrame) (off : Int) (d : Octets) : Option RtpFrame :=
  if 0 ≤ off ∧ off.toNat + d.length ≤ f.theArray.length then
    some { f with theArray := overwrite f.theArray off.toNat d }
  else none

/-- `SetExtension`. -/
def setExtension (f : RtpFrame) (ext : Bool) : Option RtpFrame :=
  f.put 0 [if ext then f.octet 0 ||| 0x10 else f.octet 0 &&& 0xef]

/-- `memmove(GetPayloadPtr(), oldPayload, sz)`, from a buffer that had `length` octets. When the
buffer has grown the old one is no longer there. -/
def movePayload (f : RtpFrame) (oldPayload : Int) (length : Nat) : Option RtpFrame :=
  if f.sizes.payloadSize + f.sizes.paddingSize = 0 then some f
  else if f.sizes.payloadSize + f.sizes.paddingSize < 0 ∨ oldPayload < 0 ∨
      length < f.theArray.length then none
  else f.put f.sizes.headerSize
    (slice f.theArray oldPayload.toNat (f.sizes.payloadSize + f.sizes.paddingSize).toNat)

/-- `SetContribSource` for an entry that is not there, without the entry. -/
def addContribSource (f : RtpFrame) (idx : Int) : Option RtpFrame := do
  let f' ← f.put 0 [f.octet 0 &&& 0xf0 ||| UInt8.ofNat (idx + 1).toNat]
  ((f'.withHeaderSize (f.sizes.headerSize + 4)).grow).movePayload f.sizes.headerSize
    f.theArray.length

/-- `SetContribSource`. -/
def setContribSource (f : RtpFrame) (idx : Int) (src : UInt32) : Option RtpFrame := do
  let f' ← if (csrcCount f.octet : Int) ≤ idx then f.addContribSource idx else some f
  f'.put (rtpMinHeader + 4 * idx) (bigEndian 4 src.toNat)

/-- `SetExtensionSizeDWORDs`. -/
def setExtensionSizeDWORDs (f : RtpFrame) (sz : Int) : Option RtpFrame := do
  let f' ← ((f.withHeaderSize
    (rtpMinHeader + 4 * csrcCount f.octet + (sz + 1) * 4)).grow).setExtension true
  f'.put (rtpMinHeader + 4 * csrcCount f.octet + 2) (bigEndian 2 (sz % 65536).toNat)

/-- `SetExtensionType`. -/
def setExtensionType (f : RtpFrame) (type : Int) : Option RtpFrame :=
  if type < 0 then f.setExtension false
  else do
    let f' ← if HasExtension f.octet then some f else f.setExtensionSizeDWORDs 0
    f'.put (rtpMinHeader + 4 * csrcCount f'.octet) (bigEndian 2 (type % 65536).toNat)

/-- `SetPayloadSize`. -/
def setPayloadSize (f : RtpFrame) (sz : Int) : RtpFrame :=
  (⟨f.theArray, ⟨f.sizes.headerSize, sz, f.sizes.paddingSize⟩⟩ : RtpFrame).grow

end RtpFrame

/-- The setters of the header, and that of the payload size. -/
inductive HeaderCall where
  | contribSource (idx : Int) (src : UInt32)
  | extension (ext : Bool)
  | extensionType (type : Int)
  | extensionSizeDWORDs (sz : Int)
  | payloadSize (sz : Int)

/-- A setter, on a frame. -/
def HeaderCall.apply : HeaderCall → RtpFrame → Option RtpFrame
  | contribSource idx src, f => f.setContribSource idx src
  | extension ext, f => f.setExtension ext
  | extensionType type, f => f.setExtensionType type
  | extensionSizeDWORDs sz, f => f.setExtensionSizeDWORDs sz
  | payloadSize sz, f => some (f.setPayloadSize sz)

/-- A setter, in a run. A run does not go on from an access outside of the buffer. -/
def HeaderCall.step (f : Option RtpFrame) (call : HeaderCall) : Option RtpFrame × Unit :=
  (f.bind call.apply, ())

section Spec

open RtpFrame

/-- The recorded size of the header is that of its parts. -/
def Consistent (f : RtpFrame) : Prop := f.sizes.headerSize = headerLength f.octet

/-- The parts of the frame are in its buffer. A payload size can be negative. -/
structure InBuffer (f : RtpFrame) : Prop where
  header : f.sizes.headerSize ≤ f.theArray.length
  total : f.total ≤ f.theArray.length
  padding : 0 ≤ f.sizes.paddingSize

/-- An octet of a contributing source. -/
def contribSource (f : RtpFrame) (i k : Nat) : UInt8 := f.octet (12 + 4 * i + k)

/-- An octet of the type of the extension. -/
def extensionType (f : RtpFrame) (k : Nat) : UInt8 := f.octet (extensionStart f.octet + k)

/-- An octet of the data of the extension. -/
def extensionData (f : RtpFrame) (j : Nat) : UInt8 := f.octet (extensionStart f.octet + 4 + j)

/-- An octet of the payload. -/
def payload (f : RtpFrame) (j : Nat) : UInt8 := f.octet (f.sizes.headerSize.toNat + j)

/-- What the setter does not set is there as before. Of the data of an extension, and of a payload,
this is as much as is left. -/
structure Preserves (call : HeaderCall) (f f' : RtpFrame) : Prop where
  csrcs : csrcCount f.octet ≤ csrcCount f'.octet
  csrc : ∀ i < csrcCount f.octet, (∀ src, call ≠ .contribSource i src) →
    ∀ k < 4, contribSource f' i k = contribSource f i k
  extension : HasExtension f.octet → HasExtension f'.octet
  extensionType : HasExtension f.octet → (∀ type, call ≠ .extensionType type) →
    ∀ k < 2, extensionType f' k = extensionType f k
  extensionWords : HasExtension f.octet → (∀ sz, call ≠ .extensionSizeDWORDs sz) →
    extensionWords f'.octet = extensionWords f.octet
  extensionData : HasExtension f.octet →
    ∀ j < 4 * min (Rtp.extensionWords f.octet) (Rtp.extensionWords f'.octet),
      extensionData f' j = extensionData f j
  payloadSize : (∀ sz, call ≠ .payloadSize sz) → f'.sizes.payloadSize = f.sizes.payloadSize
  payload : ∀ j : Nat, j < f.sizes.payloadSize → j < f'.sizes.payloadSize →
    payload f' j = payload f j

/-- The payload can be read from another place just as well. -/
def PayloadAt (f : RtpFrame) (header : Nat) : Prop :=
  (0 ≤ f.sizes.payloadSize + f.sizes.paddingSize ∨ header ≤ f.theArray.length) ∧
    ∀ j < f.sizes.payloadSize.toNat, f.octet (header + j) = payload f j

/-- The payload can be moved by four octets in the buffer as it is. -/
def RoomToMove (f : RtpFrame) : Prop :=
  f.sizes.payloadSize + f.sizes.paddingSize = 0 ∨
    0 < f.sizes.payloadSize + f.sizes.paddingSize ∧ f.total + 4 ≤ f.theArray.length

instance (f : RtpFrame) : Decidable (Consistent f) := inferInstanceAs (Decidable (_ = _))

instance (f : RtpFrame) (header : Nat) : Decidable (PayloadAt f header) :=
  inferInstanceAs (Decidable (_ ∧ _))

instance (f : RtpFrame) : Decidable (RoomToMove f) := inferInstanceAs (Decidable (_ ∨ _))

/-- The condition: a contributing source is added at the end of a list of less than fifteen, when
there is no extension and room to move the payload; the X bit is not changed by itself; and the
payload stays where an extension makes it begin. The two words in front of the contributing sources
are the timestamp and the synchronization source. -/
def KeepsPlaces (f : RtpFrame) : HeaderCall → Prop
  | .contribSource idx _ => -2 ≤ idx ∧ (csrcCount f.octet ≤ idx →
      idx = csrcCount f.octet ∧ idx < 15 ∧ ¬ HasExtension f.octet ∧ RoomToMove f)
  | .extension ext => ext = true ↔ HasExtension f.octet
  | .extensionType type => (HasExtension f.octet → 0 ≤ type) ∧
      (¬ HasExtension f.octet → 0 ≤ type → PayloadAt f (extensionStart f.octet + 4))
  | .extensionSizeDWORDs sz =>
      0 ≤ sz ∧ sz < 65536 ∧ PayloadAt f (extensionStart f.octet + 4 + 4 * sz.toNat)
  | .payloadSize _ => True

instance (f : RtpFrame) (call : HeaderCall) : Decidable (KeepsPlaces f call) := by
  cases call <;> unfold KeepsPlaces <;> infer_instance

end Spec

section Octets

variable {f : RtpFrame}

namespace RtpFrame

/-- Octets are written at their place, and nothing else is. -/
theorem put_spec {off : Int} {n : Nat} {d : Octets} (hoff : off = n)
    (h : n + d.length ≤ f.theArray.length) : ∃ f', f.put off d = some f' ∧ f'.sizes = f.sizes ∧
      f'.theArray.length = f.theArray.length ∧
      ∀ i, f'.octet i = if n ≤ i ∧ i < n + d.length then d.getD (i - n) 0 else f.octet i := by
  subst hoff
  refine ⟨_, if_pos ⟨Int.natCast_nonneg n, h⟩, rfl, Lib.length_overwrite _ _ _ h, fun i => ?_⟩
  change (overwrite f.theArray n d).getD i 0 = if _ then d.getD (i - n) 0 else f.theArray.getD i 0
  have hn : (f.theArray.take n).length = n := by
    rw [List.length_take]
    omega
  unfold overwrite
  simp only [List.getD_eq_getElem?_getD, List.append_assoc]
  by_cases hlo : n ≤ i
  · rw [List.getElem?_append_right (by omega), hn]
    by_cases hhi : i < n + d.length
    · rw [if_pos ⟨hlo, hhi⟩, List.getElem?_append_left (by omega)]
    · rw [if_neg (fun hin => hhi hin.2), List.getElem?_append_right (by omega), List.getElem?_drop]
      congr 2
      omega
  · rw [if_neg (fun hin => hlo hin.1), List.getElem?_append_left (by omega),
      List.getElem?_take_of_lt (by omega)]

@[simp]
theorem sizes_grow (f : RtpFrame) : f.grow.sizes = f.sizes := rfl

@[simp]
theorem octet_grow (f : RtpFrame) (i : Nat) : f.grow.octet i = f.octet i := by
  change (f.theArray ++ List.replicate _ 0).getD i 0 = f.theArray.getD i 0
  simp only [List.getD_eq_getElem?_getD]
  by_cases hi : i < f.theArray.length
  · rw [List.getElem?_append_left hi]
  · -- Zeros are what is read behind the end.
    have hout : f.theArray.length ≤ i := Nat.le_of_not_lt hi
    rw [List.getElem?_append_right hout, List.getElem?_replicate, List.getElem?_eq_none hout]
    split
    · rfl
    · rfl

theorem length_grow (f : RtpFrame) :
    f.grow.theArray.length = max f.theArray.length f.total.toNat := by
  change (f.theArray ++ List.replicate _ 0).length = _
  rw [List.length_append, List.length_replicate]
  omega

end RtpFrame

/-- The parts of a header are told by its octets. -/
theorem headerLength_congr {m m' : Nat → UInt8} (hfirst : m' 0 = m 0)
    (hwords : extensionWords m' = extensionWords m) : headerLength m' = headerLength m := by
  have hcount : csrcCount m' = csrcCount m := by rw [csrcCount, csrcCount, hfirst]
  have hext : HasExtension m' ↔ HasExtension m := by rw [HasExtension, HasExtension, hfirst]
  simp only [headerLength, extensionStart, hcount, hwords, hext]

/-- The size of an extension is told by the octets of the size. -/
theorem extensionWords_congr {m m' : Nat → UInt8} (hcount : csrcCount m' = csrcCount m)
    (htwo : m' (extensionStart m + 2) = m (extensionStart m + 2))
    (hthree : m' (extensionStart m + 3) = m (extensionStart m + 3)) :
    extensionWords m' = extensionWords m := by
  have hstart : extensionStart m' = extensionStart m := by
    rw [extensionStart, extensionStart, hcount]
  rw [extensionWords, extensionWords, hstart, htwo, hthree]

/-- The X bit is set. -/
theorem setBit_octet (x : UInt8) : (x ||| 0x10) &&& 0xf = x &&& 0xf ∧ (x ||| 0x10) &&& 0x10 ≠ 0 :=
  have h : ∀ x : UInt8, (x ||| 0x10) &&& 0xf = x &&& 0xf ∧ (x ||| 0x10) &&& 0x10 ≠ 0 :=
    Lib.forall_octet (by decide +kernel)
  h x

/-- The X bit is set or cleared as it was. -/
theorem keepBit_octet (x : UInt8) : (x &&& 0x10 ≠ 0 → x ||| 0x10 = x) ∧
    (x &&& 0x10 = 0 → x &&& 0xef = x) :=
  have h : ∀ x : UInt8, (x &&& 0x10 ≠ 0 → x ||| 0x10 = x) ∧ (x &&& 0x10 = 0 → x &&& 0xef = x) :=
    Lib.forall_octet (by decide +kernel)
  h x

/-- The count goes up by one. -/
theorem count_octet (x : UInt8) (h : (x &&& 0xf).toNat < 15) :
    (x &&& 0xf0 ||| UInt8.ofNat ((x &&& 0xf).toNat + 1)) &&& 0xf =
        UInt8.ofNat ((x &&& 0xf).toNat + 1) ∧
      (x &&& 0xf0 ||| UInt8.ofNat ((x &&& 0xf).toNat + 1)) &&& 0x10 = x &&& 0x10 :=
  have hall : ∀ x : UInt8, (x &&& 0xf).toNat < 15 →
      (x &&& 0xf0 ||| UInt8.ofNat ((x &&& 0xf).toNat + 1)) &&& 0xf =
          UInt8.ofNat ((x &&& 0xf).toNat + 1) ∧
        (x &&& 0xf0 ||| UInt8.ofNat ((x &&& 0xf).toNat + 1)) &&& 0x10 = x &&& 0x10 :=
    Lib.forall_octet (by decide +kernel)
  hall x h

end Octets

section Setters

open RtpFrame

variable {f : RtpFrame}

/-- The X bit is set to what it is. -/
theorem setExtension_spec {ext : Bool} (h : ext = true ↔ HasExtension f.octet)
    (hbuf : 0 < f.theArray.length) : ∃ f', f.setExtension ext = some f' ∧ f'.sizes = f.sizes ∧
      f'.theArray.length = f.theArray.length ∧ ∀ i, f'.octet i = f.octet i := by
  have hbit : (if ext then f.octet 0 ||| 0x10 else f.octet 0 &&& 0xef) = f.octet 0 := by
    cases ext with
    | true => exact (keepBit_octet _).1 (h.1 rfl)
    | false => exact (keepBit_octet _).2 (not_not.1 fun hx => Bool.false_ne_true (h.2 hx))
  rcases put_spec (n := 0) (d := [f.octet 0]) rfl (by rwa [Nat.zero_add]) with
    ⟨f', hput, hsizes, hlen, hoctet⟩
  refine ⟨f', by rw [setExtension, hbit]; exact hput, hsizes, hlen, fun i => ?_⟩
  rw [hoctet]
  split
  · rename_i hi
    have hzero : i = 0 := Nat.lt_one_iff.1 hi.2
    rw [hzero]
    rfl
  · rfl

/-- The octets of a 16-bit number. -/
theorem getD_bigEndian_two (n : Nat) : (bigEndian 2 n).getD 0 0 = UInt8.ofNat (n / 256) ∧
    (bigEndian 2 n).getD 1 0 = UInt8.ofNat n := by
  simp only [bigEndian, List.getD_cons_zero, List.getD_cons_succ, Nat.pow_zero, Nat.div_one]
  exact ⟨by norm_num, trivial⟩

/-- The extension gets its size, and the header ends behind it. -/
theorem setExtensionSizeDWORDs_spec {sz : Nat} (hsz : sz < 65536) (hbuf : InBuffer f)
    (hroom : 0 ≤ f.sizes.payloadSize + f.sizes.paddingSize ∨
      extensionStart f.octet + 4 + 4 * sz ≤ f.theArray.length) :
    ∃ f', f.setExtensionSizeDWORDs sz = some f' ∧
      f'.sizes = ⟨(extensionStart f.octet + 4 + 4 * sz : Nat), f.sizes.payloadSize,
        f.sizes.paddingSize⟩ ∧
      InBuffer f' ∧ f'.octet 0 = f.octet 0 ||| 0x10 ∧ extensionWords f'.octet = sz ∧
      ∀ i, i ≠ 0 → i ≠ extensionStart f.octet + 2 → i ≠ extensionStart f.octet + 3 →
        f'.octet i = f.octet i := by
  have hhead : (rtpMinHeader : Int) + 4 * csrcCount f.octet + ((sz : Int) + 1) * 4 =
      (extensionStart f.octet + 4 + 4 * sz : Nat) := by
    unfold extensionStart rtpMinHeader
    omega
  have hstart : (rtpMinHeader : Int) + 4 * csrcCount f.octet + 2 =
      (extensionStart f.octet + 2 : Nat) := by
    unfold extensionStart rtpMinHeader
    omega
  have hword : ((sz : Int) % 65536).toNat = sz := by omega
  let g := (f.withHeaderSize (extensionStart f.octet + 4 + 4 * sz : Nat)).grow
  have hsizes : g.sizes = ⟨(extensionStart f.octet + 4 + 4 * sz : Nat), f.sizes.payloadSize,
    f.sizes.paddingSize⟩ := rfl
  have hoctet : ∀ i, g.octet i = f.octet i := fun i => octet_grow _ i
  have hlen : g.theArray.length = max f.theArray.length g.total.toNat := length_grow _
  -- The buffer grows to the new size of the frame, if it was not large enough.
  have hfits : extensionStart f.octet + 4 + 4 * sz ≤ g.theArray.length := by
    rw [hlen]
    rcases hroom with hroom | hroom
    · have htotal : g.total = (extensionStart f.octet + 4 + 4 * sz : Nat) +
          f.sizes.payloadSize + f.sizes.paddingSize := rfl
      omega
    · omega
  have hfirst : 0 + [g.octet 0 ||| 0x10].length ≤ g.theArray.length := by
    rw [List.length_singleton]
    omega
  -- Two parts are written: the bit, and the number of words.
  rcases put_spec (rfl : (0 : Int) = (0 : Nat)) hfirst with ⟨g', hput, hsizes', hlen', hoctet'⟩
  rcases put_spec (f := g') (d := bigEndian 2 sz) hstart
    (by rw [Lib.length_bigEndian]; omega) with ⟨f', hput', hsizes'', hlen'', hoctet''⟩
  rw [Lib.length_bigEndian] at hoctet''
  have hall : f'.sizes = g.sizes := hsizes''.trans hsizes'
  have hlength : f'.theArray.length = g.theArray.length := hlen''.trans hlen'
  have hfirst : f'.octet 0 = f.octet 0 ||| 0x10 := by
    rw [hoctet'', if_neg (by unfold extensionStart; omega), hoctet',
      if_pos ⟨Nat.le_refl 0, Nat.one_pos⟩, hoctet]
    rfl
  refine ⟨f', ?_, hall.trans hsizes, ⟨?_, ?_, ?_⟩, hfirst, ?_, fun i hzero htwo hthree => ?_⟩
  · rw [setExtensionSizeDWORDs, hhead, hword]
    change (g.put 0 [g.octet 0 ||| 0x10]).bind _ = _
    rw [hput]
    exact hput'
  · rw [hall, hlength]
    change ((extensionStart f.octet + 4 + 4 * sz : Nat) : Int) ≤ _
    omega
  · have htotal : f'.total = g.total := by rw [total, hall, total]
    rw [htotal, hlength, hlen]
    omega
  · rw [hall]
    exact hbuf.padding
  · have hcount : csrcCount f'.octet = csrcCount f.octet := by
      rw [csrcCount, hfirst, (setBit_octet _).1, csrcCount]
    rw [extensionWords, extensionStart, hcount]
    change (f'.octet (extensionStart f.octet + 2)).toNat * 256 +
      (f'.octet (extensionStart f.octet + 3)).toNat = sz
    rw [hoctet'', if_pos ⟨Nat.le_refl _, by omega⟩, hoctet'', if_pos ⟨by omega, by omega⟩,
      Nat.sub_self, Nat.add_sub_add_left, (getD_bigEndian_two sz).1, (getD_bigEndian_two sz).2,
      UInt8.toNat_ofNat', UInt8.toNat_ofNat']
    omega
  · rw [hoctet'', if_neg (by omega), hoctet', if_neg (by simp only [List.length_singleton]; omega),
      hoctet]

theorem headerLength_of_not (m : Nat → UInt8) (h : ¬ HasExtension m) :
    headerLength m = extensionStart m := by
  rw [headerLength, if_neg h, Nat.add_zero]

theorem headerLength_of_extension (m : Nat → UInt8) (h : HasExtension m) :
    headerLength m = extensionStart m + 4 + 4 * extensionWords m := by
  rw [headerLength, if_pos h, Nat.add_assoc]

/-- The payload and the padding are moved, if there are any and the buffer did not grow. -/
theorem movePayload_spec {header header' : Nat} {length : Nat}
    (hheader' : f.sizes.headerSize = header') (hlength : f.theArray.length = length ∨
      f.sizes.payloadSize + f.sizes.paddingSize = 0)
    (hsize : 0 ≤ f.sizes.payloadSize + f.sizes.paddingSize)
    (hle : header ≤ header')
    (hfits : header' + (f.sizes.payloadSize + f.sizes.paddingSize).toNat ≤ f.theArray.length) :
    ∃ f', f.movePayload header length = some f' ∧ f'.sizes = f.sizes ∧
      f'.theArray.length = f.theArray.length ∧ (∀ i < header', f'.octet i = f.octet i) ∧
      ∀ j < (f.sizes.payloadSize + f.sizes.paddingSize).toNat,
        f'.octet (header' + j) = f.octet (header + j) := by
  by_cases hzero : f.sizes.payloadSize + f.sizes.paddingSize = 0
  · refine ⟨f, if_pos hzero, rfl, rfl, fun _ _ => rfl, fun j hj => ?_⟩
    rw [hzero] at hj
    exact absurd hj (Nat.not_lt_zero j)
  · have hsame : f.theArray.length = length := hlength.resolve_right hzero
    have hslice : (slice f.theArray header
        (f.sizes.payloadSize + f.sizes.paddingSize).toNat).length =
          (f.sizes.payloadSize + f.sizes.paddingSize).toNat := by
      rw [slice, List.length_take, List.length_drop]
      omega
    rcases put_spec hheader' (by rw [hslice]; exact hfits) with ⟨f', hput, hsizes, hlen, hoctet⟩
    rw [hslice] at hoctet
    refine ⟨f', ?_, hsizes, hlen, fun i hi => ?_, fun j hj => ?_⟩
    · rw [movePayload, if_neg hzero, if_neg (by omega)]
      exact hput
    · rw [hoctet, if_neg (by omega)]
    · rw [hoctet, if_pos ⟨Nat.le_add_right _ _, by omega⟩, Nat.add_sub_cancel_left]
      simp only [slice, octet, List.getD_eq_getElem?_getD, List.getElem?_take_of_lt hj,
        List.getElem?_drop]

/-- A contributing source at the end of the list: the payload is behind it. -/
theorem addContribSource_spec (hcons : Consistent f) (hbuf : InBuffer f)
    (hcount : csrcCount f.octet < 15) (hext : ¬ HasExtension f.octet) (hroom : RoomToMove f) :
    ∃ f', f.addContribSource (csrcCount f.octet) = some f' ∧
      f'.sizes = ⟨(extensionStart f.octet + 4 : Nat), f.sizes.payloadSize, f.sizes.paddingSize⟩ ∧
      InBuffer f' ∧ csrcCount f'.octet = csrcCount f.octet + 1 ∧ ¬ HasExtension f'.octet ∧
      (∀ i, 0 < i → i < extensionStart f.octet → f'.octet i = f.octet i) ∧
      ∀ j < (f.sizes.payloadSize + f.sizes.paddingSize).toNat,
        f'.octet (extensionStart f.octet + 4 + j) = f.octet (extensionStart f.octet + j) := by
  have hheader : f.sizes.headerSize = extensionStart f.octet := by
    rw [hcons, headerLength_of_not _ hext]
  have hstart : 12 ≤ extensionStart f.octet := Nat.le_add_right _ _
  have hlong := hbuf.header
  have hlong' := hbuf.total
  have htotal : f.total = f.sizes.headerSize + f.sizes.payloadSize + f.sizes.paddingSize := rfl
  have hidx : ((csrcCount f.octet : Int) + 1).toNat = (f.octet 0 &&& 0xf).toNat + 1 := by
    rw [← csrcCount]
    omega
  rcases count_octet (f.octet 0) hcount with ⟨hnibble, hbit⟩
  have hone : ∀ x : UInt8, 0 + [x].length ≤ f.theArray.length := by
    intro x
    rw [List.length_singleton]
    omega
  rcases put_spec (n := 0) rfl
    (hone (f.octet 0 &&& 0xf0 ||| UInt8.ofNat ((csrcCount f.octet : Int) + 1).toNat)) with
    ⟨f₁, hput, hsizes, hlen, hoctet⟩
  have hfirst : f₁.octet 0 = f.octet 0 &&& 0xf0 ||| UInt8.ofNat ((f.octet 0 &&& 0xf).toNat + 1) := by
    rw [hoctet, if_pos ⟨Nat.le_refl 0, Nat.one_pos⟩, ← hidx]
    rfl
  have hrest : ∀ i, 0 < i → f₁.octet i = f.octet i := by
    intro i hi
    rw [hoctet, if_neg (by rw [List.length_singleton]; omega)]
  -- The header grows by an entry, and the buffer with it.
  let g := (f₁.withHeaderSize (f.sizes.headerSize + 4)).grow
  have hgsizes : g.sizes = ⟨(extensionStart f.octet + 4 : Nat), f.sizes.payloadSize,
      f.sizes.paddingSize⟩ := by
    change (⟨f.sizes.headerSize + 4, f₁.sizes.payloadSize, f₁.sizes.paddingSize⟩ : PacketSizes) = _
    rw [hsizes, hheader]
    rfl
  have hgtotal : g.total = f.total + 4 := by
    rw [total, hgsizes, htotal, hheader]
    push_cast
    omega
  have hglen : g.theArray.length = max f.theArray.length (f.total + 4).toNat := by
    rw [← hgtotal, ← hlen]
    exact length_grow _
  have hgoctet : ∀ i, g.octet i = f₁.octet i := fun i => octet_grow _ i
  have hsum : 0 ≤ f.sizes.payloadSize + f.sizes.paddingSize := by
    rcases hroom with hroom | hroom
    · omega
    · omega
  -- The payload is only moved if the buffer was large enough before.
  rcases @movePayload_spec g (extensionStart f.octet) _ f.theArray.length
    (congrArg PacketSizes.headerSize hgsizes)
    (by
      rw [hgsizes]
      rcases hroom with hroom | hroom
      · exact Or.inr hroom
      · exact Or.inl (by rw [hglen]; omega))
    (by rw [hgsizes]; exact hsum) (Nat.le_add_right _ _)
    (by rw [hgsizes, hglen]; simp only; omega) with ⟨f', hmove, hsizes', hlen', hbelow, hmoved⟩
  have hfirst' : f'.octet 0 = f₁.octet 0 := by rw [hbelow 0 (by omega), hgoctet]
  refine ⟨f', ?_, hsizes'.trans hgsizes, ⟨?_, ?_, ?_⟩, ?_, ?_, fun i hpos hi => ?_, fun j hj => ?_⟩
  · rw [← hheader] at hmove
    rw [addContribSource]
    change ((f.put 0 _).bind _) = _
    have hput' : f.put 0 [f.octet 0 &&& 0xf0 |||
        UInt8.ofNat ((csrcCount f.octet : Int) + 1).toNat] = some f₁ := hput
    rw [hput']
    exact hmove
  · rw [hsizes', hgsizes, hlen', hglen]
    simp only
    omega
  · rw [total, hsizes', ← total, hlen', hgtotal, hglen]
    omega
  · rw [hsizes', hgsizes]
    exact hbuf.padding
  · rw [csrcCount, hfirst', hfirst, hnibble, csrcCount, UInt8.toNat_ofNat', Nat.mod_eq_of_lt]
    have := UInt8.toNat_lt (f.octet 0 &&& 0xf)
    unfold csrcCount at hcount
    omega
  · rw [HasExtension, hfirst', hfirst, hbit]
    exact hext
  · rw [hbelow i (by omega), hgoctet, hrest i hpos]
  · rw [hgsizes] at hmoved
    rw [hmoved j hj, hgoctet, hrest _ (by omega)]

end Setters

section Keeps

open RtpFrame

variable {f f' : RtpFrame} {call : HeaderCall}

/-- What is to be shown of a setter. -/
structure FrameKept (call : HeaderCall) (f f' : RtpFrame) : Prop where
  inBuffer : InBuffer f'
  consistent : Consistent f'
  preserves : Preserves call f f'

/-- A setter that writes in front of the payload and leaves the size of the header. -/
theorem kept_of_octets (hcons : Consistent f) (hbuf : InBuffer f')
    (hheader : f'.sizes.headerSize = f.sizes.headerSize)
    (hpayload : (∀ sz, call ≠ .payloadSize sz) → f'.sizes.payloadSize = f.sizes.payloadSize)
    (hfirst : f'.octet 0 = f.octet 0)
    (hcsrc : ∀ i < csrcCount f.octet, (∀ src, call ≠ .contribSource i src) →
      ∀ k < 4, contribSource f' i k = contribSource f i k)
    (htype : HasExtension f.octet → (∀ type, call ≠ .extensionType type) →
      ∀ k < 2, f'.octet (extensionStart f.octet + k) = f.octet (extensionStart f.octet + k))
    (hrest : ∀ i, extensionStart f.octet ≤ i → (HasExtension f.octet →
      extensionStart f.octet + 2 ≤ i) → f'.octet i = f.octet i) : FrameKept call f f' := by
  have hcount : csrcCount f'.octet = csrcCount f.octet := by rw [csrcCount, csrcCount, hfirst]
  have hstart : extensionStart f'.octet = extensionStart f.octet := by
    rw [extensionStart, extensionStart, hcount]
  have hbit : HasExtension f'.octet ↔ HasExtension f.octet := by
    rw [HasExtension, HasExtension, hfirst]
  -- Nothing that the length of the header comes from has changed.
  have hwords : extensionWords f'.octet = extensionWords f.octet :=
    extensionWords_congr hcount (hrest _ (by omega) (fun _ => Nat.le_refl _))
      (hrest _ (by omega) (fun _ => by omega))
  have hlength : headerLength f'.octet = headerLength f.octet := headerLength_congr hfirst hwords
  have hlong : extensionStart f.octet ≤ f.sizes.headerSize.toNat ∧
      (HasExtension f.octet → extensionStart f.octet + 2 ≤ f.sizes.headerSize.toNat) := by
    rw [hcons]
    by_cases hext : HasExtension f.octet
    · rw [headerLength_of_extension _ hext]
      exact ⟨by omega, fun _ => by omega⟩
    · rw [headerLength_of_not _ hext]
      exact ⟨by omega, fun hyes => absurd hyes hext⟩
  refine ⟨hbuf, ?_, ?_⟩
  · rw [Consistent, hheader, hlength]
    exact hcons
  · refine ⟨Nat.le_of_eq hcount.symm, hcsrc, hbit.2, ?_, fun _ _ => hwords, ?_, hpayload, ?_⟩
    · intro hext hcall k hk
      rw [extensionType, hstart]
      exact htype hext hcall k hk
    · intro hext j hj
      rw [extensionData, hstart]
      exact hrest _ (by omega) (fun _ => by omega)
    · intro j hj hj'
      rw [payload, hheader]
      exact hrest _ (by omega) (fun hext => by have := hlong.2 hext; omega)

/-- The frame gets an extension of some size, or its extension does. -/
theorem kept_of_size {sz : Nat} (hat : PayloadAt f (extensionStart f.octet + 4 + 4 * sz))
    (hcall : (∃ n, call = .extensionSizeDWORDs n) ∨ ¬ HasExtension f.octet) (hbuf : InBuffer f')
    (hsizes : f'.sizes = ⟨(extensionStart f.octet + 4 + 4 * sz : Nat), f.sizes.payloadSize,
      f.sizes.paddingSize⟩)
    (hfirst : f'.octet 0 = f.octet 0 ||| 0x10) (hwords : extensionWords f'.octet = sz)
    (htype : HasExtension f.octet →
      ∀ k < 2, f'.octet (extensionStart f.octet + k) = f.octet (extensionStart f.octet + k))
    (hrest : ∀ i, i ≠ 0 → i < extensionStart f.octet ∨ extensionStart f.octet + 4 ≤ i →
      f'.octet i = f.octet i) : FrameKept call f f' := by
  have hcount : csrcCount f'.octet = csrcCount f.octet := by
    rw [csrcCount, hfirst, (setBit_octet _).1, csrcCount]
  have hstart : extensionStart f'.octet = extensionStart f.octet := by
    rw [extensionStart, extensionStart, hcount]
  have hbit : HasExtension f'.octet := by
    rw [HasExtension, hfirst]
    exact (setBit_octet _).2
  have hstart' : extensionStart f.octet = 12 + 4 * csrcCount f.octet := rfl
  refine ⟨hbuf, ?_, ⟨Nat.le_of_eq hcount.symm, ?_, fun _ => hbit, ?_, ?_, ?_, ?_, ?_⟩⟩
  · rw [Consistent, hsizes, headerLength_of_extension _ hbit, hwords, hstart]
  · intro i hi _ k hk
    exact hrest _ (by omega) (Or.inl (by omega))
  · intro hext _ k hk
    rw [extensionType, hstart]
    exact htype hext k hk
  · intro hext hne
    rcases hcall with ⟨n, rfl⟩ | hno
    · exact absurd rfl (hne n)
    · exact absurd hext hno
  · intro _ j _
    rw [extensionData, hstart]
    exact hrest _ (by omega) (Or.inr (by omega))
  · intro _
    rw [hsizes]
  · intro j hj _
    have hheader : f'.sizes.headerSize.toNat = extensionStart f.octet + 4 + 4 * sz := by
      rw [hsizes]
      exact Int.toNat_natCast _
    -- What is behind the new extension is what the payload was.
    rw [payload, hheader, ← hat.2 j (by omega)]
    exact hrest _ (by omega) (Or.inr (by omega))

/-- The header is at least as long as what is in front of the extension. -/
theorem extensionStart_le (hcons : Consistent f) (hbuf : InBuffer f) :
    extensionStart f.octet ≤ f.theArray.length ∧
      (HasExtension f.octet → extensionStart f.octet + 4 ≤ f.theArray.length) := by
  have hheader := hbuf.header
  rw [hcons] at hheader
  by_cases hext : HasExtension f.octet
  · rw [headerLength_of_extension _ hext] at hheader
    exact ⟨by omega, fun _ => by omega⟩
  · rw [headerLength_of_not _ hext] at hheader
    exact ⟨by omega, fun hyes => absurd hyes hext⟩

theorem inBuffer_congr (hbuf : InBuffer f) (hsizes : f'.sizes = f.sizes)
    (hlen : f'.theArray.length = f.theArray.length) : InBuffer f' where
  header := by rw [hsizes, hlen]; exact hbuf.header
  total := by rw [total, hsizes, hlen]; exact hbuf.total
  padding := by rw [hsizes]; exact hbuf.padding

/-- An entry that is there, or one of the two words in front of the entries. -/
theorem setContribSource_kept {idx : Int} {src : UInt32} (hcons : Consistent f)
    (hbuf : InBuffer f) (hlo : -2 ≤ idx) (hhi : idx < csrcCount f.octet) :
    ∃ f', f.setContribSource idx src = some f' ∧ FrameKept (.contribSource idx src) f f' := by
  have hoff : (rtpMinHeader : Int) + 4 * idx = (12 + 4 * idx).toNat := by
    unfold rtpMinHeader
    omega
  have hstart : extensionStart f.octet = 12 + 4 * csrcCount f.octet := rfl
  have hlong := (extensionStart_le hcons hbuf).1
  rcases put_spec (f := f) (d := bigEndian 4 src.toNat) hoff
    (by rw [Lib.length_bigEndian]; omega) with ⟨f', hput, hsizes, hlen, hoctet⟩
  rw [Lib.length_bigEndian] at hoctet
  have hother : ∀ i : Nat, i < 4 ∨ ((i : Int) < 12 + 4 * idx ∨ 16 + 4 * idx ≤ i) →
      f'.octet i = f.octet i := by
    intro i hi
    rw [hoctet, if_neg (by omega)]
  refine ⟨f', ?_, kept_of_octets hcons (inBuffer_congr hbuf hsizes hlen)
    (congrArg PacketSizes.headerSize hsizes) (fun _ => congrArg PacketSizes.payloadSize hsizes)
    (hother 0 (by omega)) (fun i hi hne k hk => ?_) (fun _ _ k _ => hother _ (by omega))
    (fun i hi _ => hother _ (by omega))⟩
  · rw [setContribSource, if_neg (by omega)]
    exact hput
  · -- Another entry than the one that is set.
    have hi' : (i : Int) ≠ idx := by
      rintro rfl
      exact hne src rfl
    exact hother _ (by omega)

/-- A new entry, at the end. -/
theorem setContribSource_new_kept {src : UInt32} (hcons : Consistent f) (hbuf : InBuffer f)
    (hcount : csrcCount f.octet < 15) (hext : ¬ HasExtension f.octet) (hroom : RoomToMove f) :
    ∃ f', f.setContribSource (csrcCount f.octet) src = some f' ∧
      FrameKept (.contribSource (csrcCount f.octet) src) f f' := by
  rcases addContribSource_spec hcons hbuf hcount hext hroom with
    ⟨f₁, hadd, hsizes₁, hbuf₁, hcount₁, hext₁, hbelow, hmoved⟩
  have hstart : extensionStart f.octet = 12 + 4 * csrcCount f.octet := rfl
  have hoff : (rtpMinHeader : Int) + 4 * (csrcCount f.octet : Int) =
      (extensionStart f.octet : Nat) := by
    unfold rtpMinHeader
    omega
  have hlong := hbuf₁.header
  rw [hsizes₁] at hlong
  simp only at hlong
  rcases put_spec (f := f₁) (d := bigEndian 4 src.toNat) hoff
    (by rw [Lib.length_bigEndian]; omega) with ⟨f', hput, hsizes, hlen, hoctet⟩
  rw [Lib.length_bigEndian] at hoctet
  have hfirst : f'.octet 0 = f₁.octet 0 := by rw [hoctet, if_neg (by omega)]
  have hcount' : csrcCount f'.octet = csrcCount f.octet + 1 := by
    rw [csrcCount, hfirst]
    exact hcount₁
  have hext' : ¬ HasExtension f'.octet := by
    rw [HasExtension, hfirst]
    exact hext₁
  have hall := hsizes.trans hsizes₁
  refine ⟨f', ?_, inBuffer_congr hbuf₁ hsizes hlen, ?_, ⟨by omega, ?_, fun hyes => absurd hyes hext,
    fun hyes => absurd hyes hext, fun hyes => absurd hyes hext, fun hyes => absurd hyes hext, ?_,
    ?_⟩⟩
  · rw [setContribSource, if_pos (Int.le_refl _), hadd]
    exact hput
  · have hstart' : extensionStart f'.octet = 12 + 4 * (csrcCount f.octet + 1) := by
      rw [extensionStart, hcount']
    rw [Consistent, hall, headerLength_of_not _ hext']
    simp only
    omega
  · intro i hi _ k hk
    rw [contribSource, hoctet, if_neg (by omega)]
    exact hbelow _ (by omega) (by omega)
  · intro _
    rw [hall]
  · intro j hj _
    have hheader : f.sizes.headerSize.toNat = extensionStart f.octet := by
      rw [hcons, headerLength_of_not _ hext, Int.toNat_natCast]
    have hheader' : f'.sizes.headerSize.toNat = extensionStart f.octet + 4 := by
      rw [hall]
      exact Int.toNat_natCast _
    have hpadding := hbuf.padding
    rw [payload, payload, hheader, hheader', hoctet, if_neg (by omega)]
    exact hmoved j (by omega)

/-- The size of the extension. -/
theorem setExtensionSizeDWORDs_kept {sz : Nat} (hbuf : InBuffer f)
    (hsz : sz < 65536) (hat : PayloadAt f (extensionStart f.octet + 4 + 4 * sz)) :
    ∃ f', f.setExtensionSizeDWORDs sz = some f' ∧ FrameKept (.extensionSizeDWORDs sz) f f' := by
  rcases setExtensionSizeDWORDs_spec hsz hbuf hat.1 with
    ⟨f', hset, hsizes, hbuf', hfirst, hwords, hoctet⟩
  have hstart : extensionStart f.octet = 12 + 4 * csrcCount f.octet := rfl
  refine ⟨f', hset, kept_of_size hat (Or.inl ⟨sz, rfl⟩) hbuf' hsizes hfirst hwords
    (fun _ k hk => hoctet _ (by omega) (by omega) (by omega))
    (fun i hi hout => hoctet i hi (by omega) (by omega))⟩

/-- The type of the extension, which there is then. -/
theorem setExtensionType_kept {type : Int} (htype : 0 ≤ type) (hcons : Consistent f)
    (hbuf : InBuffer f)
    (hat : ¬ HasExtension f.octet → PayloadAt f (extensionStart f.octet + 4)) :
    ∃ f', f.setExtensionType type = some f' ∧ FrameKept (.extensionType type) f f' := by
  have hstart : extensionStart f.octet = 12 + 4 * csrcCount f.octet := rfl
  have hoff : (rtpMinHeader : Int) + 4 * (csrcCount f.octet : Int) =
      (extensionStart f.octet : Nat) := by
    unfold rtpMinHeader
    omega
  by_cases hext : HasExtension f.octet
  · have hlong := (extensionStart_le hcons hbuf).2 hext
    rcases put_spec (f := f) (d := bigEndian 2 (type % 65536).toNat) hoff
      (by rw [Lib.length_bigEndian]; omega) with ⟨f', hput, hsizes, hlen, hoctet⟩
    rw [Lib.length_bigEndian] at hoctet
    refine ⟨f', ?_, kept_of_octets hcons (inBuffer_congr hbuf hsizes hlen)
      (congrArg PacketSizes.headerSize hsizes) (fun _ => congrArg PacketSizes.payloadSize hsizes)
      (by rw [hoctet, if_neg (by omega)]) (fun i hi _ k hk => ?_)
      (fun _ hne => absurd rfl (hne type)) (fun i hi hbehind => ?_)⟩
    · rw [setExtensionType, if_neg (by omega), if_pos hext]
      exact hput
    · rw [contribSource, hoctet, if_neg (by omega)]
      rfl
    · have := hbehind hext
      rw [hoctet, if_neg (by omega)]
  · rcases @setExtensionSizeDWORDs_spec f 0 (by decide) hbuf (hat hext).1 with
      ⟨f₁, hset, hsizes₁, hbuf₁, hfirst₁, hwords₁, hoctet₁⟩
    have hcount₁ : csrcCount f₁.octet = csrcCount f.octet := by
      rw [csrcCount, hfirst₁, (setBit_octet _).1, csrcCount]
    have hlong := hbuf₁.header
    rw [hsizes₁] at hlong
    simp only at hlong
    rcases put_spec (f := f₁) (d := bigEndian 2 (type % 65536).toNat) hoff
      (by rw [Lib.length_bigEndian]; omega) with ⟨f', hput, hsizes, hlen, hoctet⟩
    rw [Lib.length_bigEndian] at hoctet
    have hfirst : f'.octet 0 = f₁.octet 0 := by rw [hoctet, if_neg (by omega)]
    have hwords : extensionWords f'.octet = 0 := by
      rw [← hwords₁]
      have hstart₁ : extensionStart f₁.octet = extensionStart f.octet := by
        rw [extensionStart, extensionStart, hcount₁]
      refine extensionWords_congr (by rw [csrcCount, csrcCount, hfirst]) ?_ ?_
      · rw [hoctet, if_neg (by omega)]
      · rw [hoctet, if_neg (by omega)]
    refine ⟨f', ?_, kept_of_size (hat hext) (Or.inr hext) (inBuffer_congr hbuf₁ hsizes hlen)
      (hsizes.trans hsizes₁) (hfirst.trans hfirst₁) hwords (fun hyes => absurd hyes hext)
      (fun i hi hout => ?_)⟩
    · rw [setExtensionType, if_neg (by omega), if_neg hext]
      change (f.setExtensionSizeDWORDs ((0 : Nat) : Int)).bind _ = _
      rw [hset]
      change f₁.put (rtpMinHeader + 4 * (csrcCount f₁.octet : Int)) _ = _
      rw [hcount₁]
      exact hput
    · rw [hoctet, if_neg (by omega)]
      exact hoctet₁ i hi (by omega) (by omega)

/-- One setter, when it keeps the parts of the frame in their places. -/
theorem apply_keeps (hcons : Consistent f) (hbuf : InBuffer f) (h : KeepsPlaces f call) :
    ∃ f', call.apply f = some f' ∧ FrameKept call f f' := by
  cases call with
  | contribSource idx src =>
      by_cases hidx : idx < csrcCount f.octet
      · exact setContribSource_kept hcons hbuf h.1 hidx
      · -- The only entry that can be added is the next one.
        rcases h.2 (by omega) with ⟨rfl, hlt, hext, hroom⟩
        exact setContribSource_new_kept hcons hbuf (by omega) hext hroom
  | extension ext =>
      have hstart : extensionStart f.octet = 12 + 4 * csrcCount f.octet := rfl
      have hlong := (extensionStart_le hcons hbuf).1
      rcases setExtension_spec h (by omega) with ⟨f', hset, hsizes, hlen, hoctet⟩
      exact ⟨f', hset, kept_of_octets hcons (inBuffer_congr hbuf hsizes hlen)
        (congrArg PacketSizes.headerSize hsizes) (fun _ => congrArg PacketSizes.payloadSize hsizes)
        (hoctet 0) (fun _ _ _ _ _ => hoctet _) (fun _ _ _ _ => hoctet _) (fun i _ _ => hoctet i)⟩
  | extensionType type =>
      by_cases htype : 0 ≤ type
      · exact setExtensionType_kept htype hcons hbuf (fun hext => h.2 hext htype)
      · -- A negative type takes the extension away, and there is none.
        have hext : ¬ HasExtension f.octet := fun hyes => htype (h.1 hyes)
        have hstart : extensionStart f.octet = 12 + 4 * csrcCount f.octet := rfl
        have hlong := (extensionStart_le hcons hbuf).1
        rcases @setExtension_spec f false
          (iff_of_false Bool.false_ne_true hext) (by omega) with ⟨f', hset, hsizes, hlen, hoctet⟩
        refine ⟨f', ?_, kept_of_octets hcons (inBuffer_congr hbuf hsizes hlen)
          (congrArg PacketSizes.headerSize hsizes)
          (fun _ => congrArg PacketSizes.payloadSize hsizes)
          (hoctet 0) (fun _ _ _ _ _ => hoctet _) (fun _ _ _ _ => hoctet _)
          (fun i _ _ => hoctet i)⟩
        rw [HeaderCall.apply, setExtensionType, if_pos (by omega)]
        exact hset
  | extensionSizeDWORDs sz =>
      rcases h with ⟨hnonneg, hsz, hat⟩
      rcases Int.eq_ofNat_of_zero_le hnonneg with ⟨n, rfl⟩
      exact setExtensionSizeDWORDs_kept hbuf (by omega) hat
  | payloadSize sz =>
      have hheader := hbuf.header
      have hbuf' : InBuffer (f.setPayloadSize sz) := by
        have hlen := length_grow ⟨f.theArray, ⟨f.sizes.headerSize, sz, f.sizes.paddingSize⟩⟩
        refine ⟨?_, ?_, hbuf.padding⟩
        · rw [setPayloadSize, hlen]
          exact Int.le_trans hheader (by simp only; omega)
        · rw [setPayloadSize, hlen]
          change total ⟨f.theArray, ⟨f.sizes.headerSize, sz, f.sizes.paddingSize⟩⟩ ≤ _
          omega
      have hoctet : ∀ i, (f.setPayloadSize sz).octet i = f.octet i := fun i => octet_grow _ i
      exact ⟨_, rfl, kept_of_octets hcons hbuf' rfl (fun hne => absurd rfl (hne sz)) (hoctet 0)
        (fun _ _ _ _ _ => hoctet _) (fun _ _ _ _ => hoctet _) (fun i _ _ => hoctet i)⟩

/-- The condition, in a run. -/
def StepKeeps : Option RtpFrame → HeaderCall → Prop
  | some f, call => KeepsPlaces f call
  | none, _ => True

instance (f : Option RtpFrame) (call : HeaderCall) : Decidable (StepKeeps f call) := by
  cases f <;> unfold StepKeeps <;> infer_instance

/-- Every setter of a run leaves a consistent frame, and what it does not set. -/
def SettersKeep (f : RtpFrame) (calls : List HeaderCall) : Prop :=
  ∀ x ∈ run HeaderCall.step (some f) calls, ∃ before after, x.before = some before ∧
    x.after = some after ∧ Consistent after ∧ Preserves x.input before after

/-- Setters in any order keep the frame consistent, and what they do not set. -/
theorem setters_consistent {f : RtpFrame} (hcons : Consistent f) (hbuf : InBuffer f)
    {calls : List HeaderCall} (h : Along HeaderCall.step StepKeeps (some f) calls) :
    SettersKeep f calls := by
  have hstep : ∀ s call, (∃ g, s = some g ∧ Consistent g ∧ InBuffer g) → StepKeeps s call →
      ∃ g, (HeaderCall.step s call).1 = some g ∧ FrameKept call (s.getD f) g := by
    rintro s call ⟨g, rfl, hg, hgbuf⟩ hkeeps
    exact apply_keeps hg hgbuf hkeeps
  refine Lib.run_invariant (fun s => ∃ g, s = some g ∧ Consistent g ∧ InBuffer g) ?_ ?_ _ _
    ⟨f, rfl, hcons, hbuf⟩ h
  · rintro s call hs hkeeps
    rcases hstep s call hs hkeeps with ⟨g, hg, hkept⟩
    exact ⟨g, hg, hkept.consistent, hkept.inBuffer⟩
  · rintro s call hs hkeeps
    rcases hstep s call hs hkeeps with ⟨g, hg, hkept⟩
    rcases hs with ⟨before, rfl, -, -⟩
    exact ⟨before, g, rfl, hg, hkept.consistent, hkept.preserves⟩

/-- Contributing sources, an extension and a payload, in this order. -/
theorem setters_in_order : SettersKeep (RtpFrame.new 0 0)
    [.contribSource 0 7, .extensionType 5, .extensionSizeDWORDs 2, .payloadSize 10] :=
  setters_consistent (by decide) ⟨by decide, by decide, by decide⟩ (by decide)

/-- A contributing source that is added behind an extension is written over the extension. -/
theorem extension_overwritten : ∃ before after,
    (HeaderCall.extensionType 0x1234).apply (RtpFrame.new 0 0) = some before ∧
      (HeaderCall.contribSource 0 7).apply before = some after ∧
      ¬ Preserves (.contribSource 0 7) before after := by
  refine ⟨_, _, rfl, rfl, fun h => ?_⟩
  exact absurd (h.extensionType (by decide) (fun _ heq => nomatch heq) 0 (by decide)) (by decide)

/-- A frame that was made for a payload. -/
theorem new_consistent (payloadSize bufferSize : Nat) :
    Consistent (RtpFrame.new payloadSize bufferSize) ∧
      InBuffer (RtpFrame.new payloadSize bufferSize) := by
  have hfirst : (RtpFrame.new payloadSize bufferSize).octet 0 = 0x80 := rfl
  have hext : ¬ HasExtension (RtpFrame.new payloadSize bufferSize).octet := by
    rw [HasExtension, hfirst]
    decide
  have hcount : csrcCount (RtpFrame.new payloadSize bufferSize).octet = 0 := by
    rw [csrcCount, hfirst]
    rfl
  have hlen : (RtpFrame.new payloadSize bufferSize).theArray.length =
      max bufferSize (12 + payloadSize) := by
    simp only [RtpFrame.new, List.length_cons, List.length_replicate, rtpMinHeader]
    omega
  refine ⟨?_, ⟨?_, ?_, Int.le_refl 0⟩⟩
  · rw [Consistent, headerLength_of_not _ hext, extensionStart, hcount]
    rfl
  · rw [hlen]
    change (12 : Int) ≤ _
    omega
  · rw [hlen]
    change (12 : Int) + payloadSize + 0 ≤ _
    omega

/-- A frame whose sizes add up is taken apart by its receiver as it was put together. The receiver
reads what was sent and nothing else. -/
theorem setPacketSize_total {sizes : PacketSizes} (hcons : Consistent f)
    (hpad : ¬ HasPadding f.octet) (hnone : f.sizes.paddingSize = 0)
    (hpayload : 0 ≤ f.sizes.payloadSize) (hold : sizes.paddingSize = 0) :
    (setPacketSize f.octet sizes f.total).value = (f.sizes, true) ∧
      (setPacketSize f.octet sizes f.total).Within 0 f.total.toNat := by
  have hheader : f.sizes.headerSize = headerLength f.octet := hcons
  have hmin := le_headerLength f.octet
  have htotal : f.total = f.sizes.headerSize + f.sizes.payloadSize + f.sizes.paddingSize := rfl
  have hlong : 12 ≤ f.total := by omega
  constructor
  · rw [value_setPacketSize hlong, if_neg (by omega), if_neg hpad]
    have hrest : f.total - headerLength f.octet = f.sizes.payloadSize := by omega
    rw [hrest, ← hheader, hold, ← hnone]
  · rw [within_setPacketSize hlong]
    intro hext
    rw [headerLength_of_extension _ hext] at hheader
    omega

/-- Without padding, the receiver of what a run of setters has put together finds the same header and
the same payload, whatever it received before. -/
def ReceivedAsBuilt (f : RtpFrame) (calls : List HeaderCall) : Prop :=
  ∀ x ∈ run HeaderCall.step (some f) calls, ∃ built, x.after = some built ∧
    (¬ HasPadding built.octet → built.sizes.paddingSize = 0 → 0 ≤ built.sizes.payloadSize →
      ∀ sizes : PacketSizes, sizes.paddingSize = 0 →
        (setPacketSize built.octet sizes built.total).value = (built.sizes, true) ∧
        (setPacketSize built.octet sizes built.total).Within 0 built.total.toNat)

end Keeps

end Rtp

end CryptoOpal

import CryptoOpal.Rtp.Buffer

/-!
# Control Frames

`RTP_ControlFrame`: a buffer in which RTCP packets are put together one after
another, and found again one after another. The frame knows where the current
packet starts, and while it is written how long its payload is. A reader takes
the length from the packet, where it is kept in words.

The lemmas say what each operation does to a buffer whose current packet
starts after some octets `pre`, with a header of four octets. `PAssert` only
reports, so the checks made with it do not appear here. Sizes are natural
numbers: an `int` that becomes too large is not modelled.

## Main definitions

* `ControlFrame`: `RTP_ControlFrame`.
* `startNewPacket`, `setPayloadType`, `setPayloadSize`, `endPacket`: Building.
* `getCompoundSize`: The octets to send.
* `getPayloadPtr`, `readNextPacket`: Reading.

## Theorems

* `startNewPacket_eq`: A new packet has an empty payload.
* `setPayloadSize_eq`: The buffer has room for four times the payload.
* `endPacket_eq`: The padding starts at the last octet of the payload.
-/

namespace CryptoOpal

namespace Rtp

open Lib (Octets slice overwrite bigEndian ofBigEndian)
open Srtp (Stop inside)

/-- `RTP_ControlFrame`: the buffer, where the current packet starts in it, and
    the size of the payload that is being written. -/
structure ControlFrame where
  theArray : Octets
  compoundOffset : Nat
  payloadSize : Nat
  deriving DecidableEq

/-- `(size + 3) & ~3`. -/
def roundUp4 (size : Nat) : Nat := (size + 3) / 4 * 4

namespace ControlFrame

/-- `RTP_ControlFrame(sz)`. -/
def new (sz : Nat) : ControlFrame := ⟨List.replicate sz 0, 0, 0⟩

/-- The `len` octets of the current packet from `off` on. -/
def get (frame : ControlFrame) (off len : Nat) : Except Stop Octets :=
  readAt frame.theArray (frame.compoundOffset + off) len

/-- The frame with `d` written into the current packet from `off` on. -/
def put (frame : ControlFrame) (off : Nat) (d : Octets) : Except Stop ControlFrame :=
  (writeAt frame.theArray (frame.compoundOffset + off) d).map fun array =>
    { frame with theArray := array }

/-- `GetCount`. -/
def getCount (frame : ControlFrame) : Except Stop Nat :=
  (frame.get 0 1).map fun b => (b.getD 0 0).toNat % 32

/-- `SetCount`. -/
def setCount (frame : ControlFrame) (count : Nat) : Except Stop ControlFrame := do
  let b ← frame.get 0 1
  frame.put 0 [b.getD 0 0 &&& 0xe0 ||| UInt8.ofNat count]

/-- `GetPayloadType`. -/
def getPayloadType (frame : ControlFrame) : Except Stop UInt8 :=
  (frame.get 1 1).map fun b => b.getD 0 0

/-- `SetPayloadType`. -/
def setPayloadType (frame : ControlFrame) (t : UInt8) : Except Stop ControlFrame :=
  frame.put 1 [t]

/-- `GetPayloadSize`: the size in the packet, in octets. -/
def getPayloadSize (frame : ControlFrame) : Except Stop Nat :=
  (frame.get 2 2).map fun word => 4 * ofBigEndian word

/-- `SetPayloadSize`. The number of words is cut off to a `WORD`. -/
def setPayloadSize (frame : ControlFrame) (sz : Nat) : Except Stop ControlFrame :=
  { frame with
    payloadSize := sz
    theArray := setMinSize frame.theArray (frame.compoundOffset + 4 + 4 * roundUp4 sz) }.put 2
      (bigEndian 2 (roundUp4 sz / 4))

/-- `GetPayloadPtr`: where the payload starts, and `none` for `NULL`. -/
def getPayloadPtr (frame : ControlFrame) : Except Stop (Option Nat) := do
  let size ← frame.getPayloadSize
  .ok (if size = 0 ∨ frame.theArray.length ≤ frame.compoundOffset + 4 then none
    else some (frame.compoundOffset + 4))

/-- `GetCompoundSize`: where the current packet starts, and its size. -/
def getCompoundSize (frame : ControlFrame) : Except Stop Nat := do
  let size ← frame.getPayloadSize
  .ok (frame.compoundOffset + size)

/-- `StartNewPacket`. -/
def startNewPacket (frame : ControlFrame) : Except Stop ControlFrame := do
  let frame := { frame with theArray := setMinSize frame.theArray (frame.compoundOffset + 4) }
  let frame ← frame.put 0 [0x80]
  let frame ← frame.put 1 [0]
  let frame ← frame.put 2 [0]
  let frame ← frame.put 3 [0]
  frame.setPayloadSize 0

/-- The loop of `EndPacket`. It ends after three rounds at most. -/
def align : Nat → ControlFrame → Except Stop ControlFrame
  | 0, frame => .ok frame
  | fuel + 1, frame =>
    if (4 + frame.payloadSize) % 4 ≠ 0 then do
      let frame ← frame.put (4 + frame.payloadSize - 1) [0]
      align fuel { frame with payloadSize := frame.payloadSize + 1 }
    else .ok frame

/-- `EndPacket`. -/
def endPacket (frame : ControlFrame) : Except Stop ControlFrame := do
  let frame ← align 3 frame
  .ok { frame with
    compoundOffset := frame.compoundOffset + (4 + frame.payloadSize)
    payloadSize := 0 }

/-- `ReadNextPacket`: whether there is another packet, which is then the
    current one. -/
def readNextPacket (frame : ControlFrame) : Except Stop (Bool × ControlFrame) := do
  let size ← frame.getPayloadSize
  let next := { frame with compoundOffset := frame.compoundOffset + (size + 4) }
  if next.theArray.length < next.compoundOffset + 4 then .ok (false, next)
  else (next.getPayloadSize).map fun size =>
    (decide (next.compoundOffset + size + 4 ≤ next.theArray.length), next)

end ControlFrame

section Sizes

variable {size : Nat}

theorem le_roundUp4 (size : Nat) : size ≤ roundUp4 size := by
  unfold roundUp4
  omega

theorem roundUp4_mod (size : Nat) : roundUp4 size % 4 = 0 := by
  unfold roundUp4
  omega

theorem roundUp4_lt (size : Nat) : roundUp4 size < size + 4 := by
  unfold roundUp4
  omega

/-- The number of words of a size. -/
theorem four_mul_div (size : Nat) : 4 * (roundUp4 size / 4) = roundUp4 size := by
  unfold roundUp4
  omega

end Sizes

/-- The header of an RTCP packet: version and count, type, and the size in
    words. -/
def packetHeader (b0 t : UInt8) (words : Nat) : Octets := b0 :: t :: bigEndian 2 words

@[simp] theorem length_packetHeader (b0 t : UInt8) (words : Nat) :
    (packetHeader b0 t words).length = 4 := rfl

/-- What `EndPacket` makes of a payload: if it needs padding, the padding
    starts one octet too early. -/
def endPayload (payload : Octets) : Octets :=
  if payload.length % 4 = 0 then payload
  else payload.dropLast ++ List.replicate (roundUp4 payload.length - payload.length + 1) 0

theorem length_endPayload (payload : Octets) :
    (endPayload payload).length = roundUp4 payload.length := by
  unfold endPayload roundUp4
  split
  · omega
  · rw [List.length_append, List.length_dropLast, List.length_replicate]
    omega

section Steps

variable {pre rest : Octets} {b0 t : UInt8} {words ps k : Nat}

/-- Reading a part of the current packet. -/
theorem get_middle (a b c : Octets) (off len : Nat) (hoff : a.length = pre.length + off)
    (hlen : b.length = len) :
    ControlFrame.get ⟨a ++ b ++ c, pre.length, ps⟩ off len = .ok b := by
  rw [ControlFrame.get, ← hoff, ← hlen]
  exact readAt_middle a b c

/-- Writing over a part of the current packet. -/
theorem put_middle (a b c d : Octets) (off : Nat) (hoff : a.length = pre.length + off)
    (hd : d.length = b.length) :
    ControlFrame.put ⟨a ++ b ++ c, pre.length, ps⟩ off d =
      .ok ⟨a ++ d ++ c, pre.length, ps⟩ := by
  rw [ControlFrame.put, ← hoff, writeAt_middle a b c d hd]
  rfl

/-- Writing one octet of a part that the current packet starts with. -/
theorem put_set (hd : Octets) (i : Nat) (hi : i < hd.length) (x : UInt8) :
    ControlFrame.put ⟨pre ++ hd ++ rest, pre.length, ps⟩ i [x] =
      .ok ⟨pre ++ hd.set i x ++ rest, pre.length, ps⟩ := by
  have hsplit : pre ++ hd ++ rest = (pre ++ hd.take i) ++ [hd[i]] ++ (hd.drop (i + 1) ++ rest) := by
    conv_lhs => rw [← List.take_append_drop i hd, List.drop_eq_getElem_cons hi]
    simp only [List.append_assoc, List.cons_append, List.nil_append]
  rw [hsplit, put_middle (pre ++ hd.take i) [hd[i]] _ [x] i (by
    rw [List.length_append, List.length_take, Nat.min_eq_left (Nat.le_of_lt hi)]) rfl,
    List.set_eq_take_append_cons_drop, if_pos hi]
  simp only [List.append_assoc, List.cons_append, List.nil_append]

/-- The first octet of a header, and what surrounds it. -/
theorem split_first : pre ++ packetHeader b0 t words ++ rest =
    pre ++ [b0] ++ (t :: bigEndian 2 words ++ rest) := by
  simp only [packetHeader, List.append_assoc, List.cons_append, List.nil_append]

/-- The type of a header, and what surrounds it. -/
theorem split_type : pre ++ packetHeader b0 t words ++ rest =
    (pre ++ [b0]) ++ [t] ++ (bigEndian 2 words ++ rest) := by
  simp only [packetHeader, List.append_assoc, List.cons_append, List.nil_append]

/-- The size of a header, and what surrounds it. -/
theorem split_words : pre ++ packetHeader b0 t words ++ rest =
    (pre ++ [b0, t]) ++ bigEndian 2 words ++ rest := by
  simp only [packetHeader, List.append_assoc, List.cons_append, List.nil_append]

theorem getPayloadType_eq :
    ControlFrame.getPayloadType ⟨pre ++ packetHeader b0 t words ++ rest, pre.length, ps⟩ =
      .ok t := by
  rw [split_type, ControlFrame.getPayloadType,
    get_middle (pre ++ [b0]) [t] _ 1 1 (by rw [List.length_append, List.length_singleton]) rfl]
  rfl

theorem setPayloadType_eq (t' : UInt8) :
    ControlFrame.setPayloadType ⟨pre ++ packetHeader b0 t words ++ rest, pre.length, ps⟩ t' =
      .ok ⟨pre ++ packetHeader b0 t' words ++ rest, pre.length, ps⟩ := by
  rw [split_type, ControlFrame.setPayloadType,
    put_middle (pre ++ [b0]) [t] _ [t'] 1 (by rw [List.length_append, List.length_singleton]) rfl,
    ← split_type]

theorem getCount_eq :
    ControlFrame.getCount ⟨pre ++ packetHeader b0 t words ++ rest, pre.length, ps⟩ =
      .ok (b0.toNat % 32) := by
  rw [split_first, ControlFrame.getCount, get_middle pre [b0] _ 0 1 rfl rfl]
  rfl

theorem setCount_eq (count : Nat) :
    ControlFrame.setCount ⟨pre ++ packetHeader b0 t words ++ rest, pre.length, ps⟩ count =
      .ok ⟨pre ++ packetHeader (b0 &&& 0xe0 ||| UInt8.ofNat count) t words ++ rest,
        pre.length, ps⟩ := by
  rw [split_first, ControlFrame.setCount, get_middle pre [b0] _ 0 1 rfl rfl]
  simp only [bind, Except.bind, List.getD_cons_zero]
  rw [put_middle pre [b0] _ [b0 &&& 0xe0 ||| UInt8.ofNat count] 0 rfl rfl, ← split_first]

theorem getPayloadSize_eq :
    ControlFrame.getPayloadSize ⟨pre ++ packetHeader b0 t words ++ rest, pre.length, ps⟩ =
      .ok (4 * (words % 65536)) := by
  rw [split_words, ControlFrame.getPayloadSize,
    get_middle (pre ++ [b0, t]) (bigEndian 2 words) rest 2 2 (by rw [List.length_append]; rfl) rfl]
  simp only [Except.map, Lib.ofBigEndian_bigEndian]
  rfl

/-- The size is written to the header, and the buffer has room for four times
    the payload. -/
theorem setPayloadSize_eq (body : Octets) (sz : Nat) :
    ControlFrame.setPayloadSize
        ⟨pre ++ packetHeader b0 t words ++ (body ++ List.replicate k 0), pre.length, ps⟩ sz =
      .ok ⟨pre ++ packetHeader b0 t (roundUp4 sz / 4) ++
        (body ++ List.replicate (max k (4 * roundUp4 sz - body.length)) 0), pre.length, sz⟩ := by
  have hgrow : setMinSize (pre ++ packetHeader b0 t words ++ (body ++ List.replicate k 0))
      (pre.length + 4 + 4 * roundUp4 sz) = pre ++ packetHeader b0 t words ++
        (body ++ List.replicate (max k (4 * roundUp4 sz - body.length)) 0) := by
    rw [← List.append_assoc, setMinSize_zeros, List.append_assoc]
    simp only [List.length_append, length_packetHeader]
    congr 4
    omega
  rw [ControlFrame.setPayloadSize, hgrow, split_words,
    put_middle (pre ++ [b0, t]) (bigEndian 2 words) _ (bigEndian 2 (roundUp4 sz / 4)) 2 (by rw [List.length_append]; rfl) rfl,
    ← split_words]

/-- A new packet is a header with nothing after it. -/
theorem startNewPacket_eq :
    ControlFrame.startNewPacket ⟨pre ++ List.replicate k 0, pre.length, ps⟩ =
      .ok ⟨pre ++ packetHeader 0x80 0 0 ++ List.replicate (k - 4) 0, pre.length, 0⟩ := by
  -- Once there is room for it, the header is written octet by octet.
  have hgrow : setMinSize (pre ++ List.replicate k 0) (pre.length + 4) =
      pre ++ [0, 0, 0, 0] ++ List.replicate (k - 4) 0 := by
    rw [setMinSize_zeros, List.append_assoc]
    rw [show max k (pre.length + 4 - pre.length) = 4 + (k - 4) by omega,
      List.replicate_add]
    rfl
  have hsize : ControlFrame.setPayloadSize
      ⟨pre ++ packetHeader 0x80 0 0 ++ List.replicate (k - 4) 0, pre.length, ps⟩ 0 =
        .ok ⟨pre ++ packetHeader 0x80 0 0 ++ List.replicate (max (k - 4) 0) 0, pre.length, 0⟩ :=
    setPayloadSize_eq [] 0
  simp only [ControlFrame.startNewPacket, hgrow]
  rw [put_set [0, 0, 0, 0] 0 (by decide) 0x80]
  simp only [bind, Except.bind, List.set_cons_zero]
  rw [put_set [0x80, 0, 0, 0] 1 (by decide) 0]
  simp only [List.set_cons_succ, List.set_cons_zero]
  rw [put_set [0x80, 0, 0, 0] 2 (by decide) 0]
  simp only [List.set_cons_succ, List.set_cons_zero]
  rw [put_set [0x80, 0, 0, 0] 3 (by decide) 0]
  rw [Nat.max_zero] at hsize
  exact hsize

/-- The loop of `EndPacket` writes zeros, the first one over the last octet of
    the payload. -/
theorem align_eq (pre b c a : Octets) (fuel ps : Nat) (hfuel : b.length ≤ fuel)
    (hb : b.length < 4) (ha : a.length + 1 = pre.length + (4 + ps))
    (hps : (ps + b.length) % 4 = 0) :
    ControlFrame.align fuel ⟨a ++ b ++ c, pre.length, ps⟩ =
      .ok ⟨a ++ List.replicate b.length 0 ++ c, pre.length, ps + b.length⟩ := by
  induction b generalizing a fuel ps with
  | nil =>
      cases fuel with
      | zero => rfl
      | succ fuel =>
          rw [List.length_nil, Nat.add_zero] at hps
          rw [ControlFrame.align, if_neg (show ¬ (4 + ps) % 4 ≠ 0 by omega)]
          rfl
  | cons x b ih =>
      rw [List.length_cons] at hfuel hb hps
      cases fuel with
      | zero => exact absurd hfuel (Nat.not_succ_le_zero _)
      | succ fuel =>
          have hput : ControlFrame.put ⟨a ++ [x] ++ (b ++ c), pre.length, ps⟩ (4 + ps - 1) [0] =
              .ok ⟨a ++ [0] ++ (b ++ c), pre.length, ps⟩ :=
            put_middle a [x] (b ++ c) [0] (4 + ps - 1) (by omega) rfl
          have hnext := ih (a ++ [0]) fuel (ps + 1) (by omega) (by omega)
            (by rw [List.length_append, List.length_singleton]; omega) (by omega)
          rw [show a ++ x :: b ++ c = a ++ [x] ++ (b ++ c) by
            simp only [List.append_assoc, List.cons_append, List.nil_append],
            ControlFrame.align, if_pos (show (4 + ps) % 4 ≠ 0 by omega)]
          simp only [hput, bind, Except.bind]
          rw [← List.append_assoc, hnext]
          simp only [List.length_cons, List.replicate_succ, List.append_assoc, List.cons_append,
            List.nil_append, Nat.add_comm, Nat.add_left_comm]

/-- The loop on a payload with something to fill up. -/
theorem align_concat (a q : Octets) (x : UInt8) (pad : Nat) (ha : a.length = pre.length + 4)
    (hpad : 0 < pad) (hlt : pad < 4) (hroom : pad ≤ k) (hmod : (q.length + 1 + pad) % 4 = 0) :
    ControlFrame.align 3 ⟨a ++ (q ++ [x] ++ List.replicate k 0), pre.length, q.length + 1⟩ =
      .ok ⟨a ++ (q ++ List.replicate (pad + 1) 0) ++ List.replicate (k - pad) 0, pre.length,
        q.length + 1 + pad⟩ := by
  have hsplit : a ++ (q ++ [x] ++ List.replicate k 0) =
      (a ++ q) ++ (x :: List.replicate (pad - 1) 0) ++ List.replicate (k - (pad - 1)) 0 := by
    rw [show k = (pad - 1) + (k - (pad - 1)) by omega, List.replicate_add, Nat.add_sub_cancel_left]
    simp only [List.append_assoc, List.cons_append, List.nil_append]
  have hlen : (x :: List.replicate (pad - 1) (0 : UInt8)).length = pad := by
    rw [List.length_cons, List.length_replicate]
    omega
  have halign := align_eq pre (x :: List.replicate (pad - 1) 0) (List.replicate (k - (pad - 1)) 0)
    (a ++ q) 3 (q.length + 1) (by omega) (by omega) (by rw [List.length_append]; omega)
    (by omega)
  have hzeros : List.replicate pad (0 : UInt8) ++ List.replicate (k - (pad - 1)) 0 =
      List.replicate (pad + 1) 0 ++ List.replicate (k - pad) 0 := by
    rw [List.replicate_append_replicate, List.replicate_append_replicate]
    congr 1
    omega
  rw [hsplit, halign, hlen, List.append_assoc, hzeros]
  simp only [List.append_assoc]

/-- `EndPacket` moves on to the end of the padded payload. -/
theorem endPacket_eq (payload : Octets) (hroom : roundUp4 payload.length - payload.length ≤ k) :
    ControlFrame.endPacket ⟨pre ++ packetHeader b0 t words ++ (payload ++ List.replicate k 0),
        pre.length, payload.length⟩ =
      .ok ⟨pre ++ packetHeader b0 t words ++ endPayload payload ++
          List.replicate (k - (roundUp4 payload.length - payload.length)) 0,
        (pre ++ packetHeader b0 t words ++ endPayload payload).length, 0⟩ := by
  have hle := le_roundUp4 payload.length
  have hlt := roundUp4_lt payload.length
  have hmod := roundUp4_mod payload.length
  have halign : ControlFrame.align 3
      ⟨pre ++ packetHeader b0 t words ++ (payload ++ List.replicate k 0), pre.length,
        payload.length⟩ =
      .ok ⟨pre ++ packetHeader b0 t words ++ endPayload payload ++
          List.replicate (k - (roundUp4 payload.length - payload.length)) 0, pre.length,
        roundUp4 payload.length⟩ := by
    unfold endPayload
    by_cases hwords : payload.length % 4 = 0
    · -- There is nothing to fill up.
      have hround : roundUp4 payload.length = payload.length := by unfold roundUp4; omega
      rw [ControlFrame.align, if_neg (show ¬ (4 + payload.length) % 4 ≠ 0 by omega),
        if_pos hwords, hround, Nat.sub_self, Nat.sub_zero, List.append_assoc _ payload]
    · -- The first zero goes over the last octet of the payload.
      rcases List.eq_nil_or_concat payload with rfl | ⟨q, x, rfl⟩
      · exact absurd rfl hwords
      rw [List.concat_eq_append] at *
      rw [if_neg hwords, List.dropLast_concat]
      rw [List.length_append, List.length_singleton] at *
      rw [align_concat _ q x (roundUp4 (q.length + 1) - (q.length + 1))
        (by rw [List.length_append, length_packetHeader]) (by omega) (by omega) hroom (by omega)]
      congr 2
      omega
  rw [ControlFrame.endPacket, halign]
  simp only [bind, Except.bind, List.length_append, length_packetHeader, length_endPayload]
  congr 2
  omega

/-- The payload of the current packet, if it has one. -/
theorem getPayloadPtr_eq (hwords : words % 65536 ≠ 0) (hrest : rest ≠ []) :
    ControlFrame.getPayloadPtr ⟨pre ++ packetHeader b0 t words ++ rest, pre.length, ps⟩ =
      .ok (some (pre.length + 4)) := by
  have hpos := List.length_pos_of_ne_nil hrest
  rw [ControlFrame.getPayloadPtr, getPayloadSize_eq]
  simp only [bind, Except.bind]
  rw [if_neg]
  simp only [List.length_append, length_packetHeader]
  omega

theorem getPayloadPtr_none (hwords : words % 65536 = 0) :
    ControlFrame.getPayloadPtr ⟨pre ++ packetHeader b0 t words ++ rest, pre.length, ps⟩ =
      .ok none := by
  rw [ControlFrame.getPayloadPtr, getPayloadSize_eq]
  simp only [bind, Except.bind, hwords, Nat.mul_zero, true_or, if_true]

/-- After the last packet, the size of another one is read from the zeros that
    follow, if there are enough of them. -/
theorem getCompoundSize_eq :
    ControlFrame.getCompoundSize ⟨pre ++ List.replicate k 0, pre.length, ps⟩ =
      if 4 ≤ k then .ok pre.length else .error .fault := by
  by_cases hk : 4 ≤ k
  · have hsplit : pre ++ List.replicate k 0 =
        pre ++ packetHeader 0 0 0 ++ List.replicate (k - 4) 0 := by
      rw [show k = 4 + (k - 4) by omega, List.replicate_add, Nat.add_sub_cancel_left,
        List.append_assoc]
      rfl
    rw [if_pos hk, ControlFrame.getCompoundSize, hsplit, getPayloadSize_eq]
    rfl
  · have hshort : (pre ++ List.replicate k (0 : UInt8)).length < pre.length + 2 + 2 := by
      rw [List.length_append, List.length_replicate]
      omega
    rw [if_neg hk, ControlFrame.getCompoundSize, ControlFrame.getPayloadSize, ControlFrame.get,
      readAt_fault hshort]
    rfl

end Steps

end Rtp

end CryptoOpal

import CryptoOpal.Rtp.Buffer

/-!
# Padding of Encrypted Audio

`RTP_Session::OnSendData` and `RTP_Session::OnReceiveData` around the calls of
`srtp_protect` and `srtp_unprotect`. The cipher in use works on blocks of
sixteen octets, so the sender fills up the last block, and the last octet says
by how much.

The sender pads only if there is something to fill up, while the receiver
looks for padding in every packet. So a payload of whole blocks is only safe if
it does not end in a way that looks like padding (`PaddingKept`), and any other
payload only if the frame's buffer has room for the padding: `set_Enc_pad`
writes before the buffer is made longer.

`srtp_protect` and `srtp_unprotect` are parameters here. What the result needs
of them is that they undo each other and keep the length (`MutuallyInverse`).

## Main definitions

* `DataFrame`: `RTP_DataFrame`.
* `setEncPad`, `checkDecPad`: `set_Enc_pad` and `check_Dec_pad`.
* `onSendData`, `onReceiveData`: The two functions.
* `PaddingKept`: The condition.

## Theorems

* `checkDecPad_encPad`: The receiver recognizes the sender's padding.
* `padding_transparent`: When the payload arrives as it was sent.
-/

namespace CryptoOpal

namespace Rtp

open Lib (Octets overwrite)
open Srtp (SrtpErrStatus Stop inside orStop)

/-- `RTP_DataFrame`: a buffer, and the sizes of the parts of the packet in it.
    A size is an `int`, and the payload's can become negative. -/
structure DataFrame where
  theArray : Octets
  headerSize : Nat
  payloadSize : Int
  paddingSize : Nat
  deriving DecidableEq

namespace DataFrame

/-- `SetPayloadSize`. -/
def setPayloadSize (frame : DataFrame) (sz : Int) : DataFrame :=
  { frame with
    payloadSize := sz
    theArray :=
      setMinSize frame.theArray (frame.headerSize + sz + frame.paddingSize).toNat }

/-- Header and payload, `GetHeaderSize() + GetPayloadSize()` octets from
    `GetPointer()` on. -/
def packet (frame : DataFrame) : Octets :=
  frame.theArray.take (frame.headerSize + frame.payloadSize).toNat

/-- The payload, from `GetPayloadPtr()` on. -/
def payload (frame : DataFrame) : Octets :=
  (frame.theArray.drop frame.headerSize).take frame.payloadSize.toNat

/-- The frame with another packet written over the one in its buffer. -/
def withPacket (frame : DataFrame) (packet : Octets) : DataFrame :=
  { frame with theArray := overwrite frame.theArray 0 packet }

/-- A frame that holds an RTP packet. -/
structure Valid (frame : DataFrame) : Prop where
  header : 12 ≤ frame.headerSize
  nonneg : 0 ≤ frame.payloadSize
  inside : frame.headerSize + frame.payloadSize ≤ frame.theArray.length

end DataFrame

/-- The number of octets `set_Enc_pad` adds. -/
def encPadLen (encLen : Nat) : Nat := 16 - encLen % 16

/-- What `set_Enc_pad` writes: zeros, and the number of octets added. -/
def encPad (encLen : Nat) : Octets :=
  List.replicate (encPadLen encLen - 1) 0 ++ [UInt8.ofNat (encPadLen encLen)]

/-- `set_Enc_pad`, on a payload in a buffer. -/
def setEncPad (array : Octets) (start encLen : Nat) : Except Stop Octets := do
  inside array (start + encLen) (encPadLen encLen)
  .ok (overwrite array (start + encLen) (encPad encLen))

/-- The loop of `check_Dec_pad`, over the octets before the last one, from the
    end on. -/
def zerosBack : Nat → Octets → Except Stop Bool
  | 0, _ => .ok true
  | _ + 1, [] => .error .fault
  | k + 1, b :: bs => if b ≠ 0 then .ok false else zerosBack k bs

/-- `check_Dec_pad`: the number of octets to strip. -/
def checkDecPad (packet : Octets) : Except Stop Nat :=
  match packet.reverse with
  | [] => .error .fault
  | last :: before =>
    (zerosBack (last.toNat - 1) before).map fun padded => if padded then last.toNat else 0

/-- The padding of `OnSendData`: none if the payload is made of whole blocks. -/
def padPayload (frame : DataFrame) : Except Stop DataFrame :=
  if frame.payloadSize % 16 ≠ 0 then do
    let array ← setEncPad frame.theArray frame.headerSize frame.payloadSize.toNat
    .ok ({ frame with theArray := array }.setPayloadSize
      (frame.payloadSize + encPadLen frame.payloadSize.toNat))
  else .ok (frame.setPayloadSize frame.payloadSize)

/-- `OnSendData`, once there is a context for the outgoing stream. -/
def onSendData (protect : Octets → Except SrtpErrStatus Octets) (frame : DataFrame) :
    Except Stop DataFrame := do
  let frame ← padPayload frame
  let packet ← orStop .status (protect frame.packet)
  .ok ((frame.withPacket packet).setPayloadSize (packet.length - frame.headerSize))

/-- `OnReceiveData`, once there is a context for the incoming stream. -/
def onReceiveData (unprotect : Octets → Except SrtpErrStatus Octets) (frame : DataFrame) :
    Except Stop DataFrame := do
  let packet ← orStop .status (unprotect frame.packet)
  let padLen ← checkDecPad packet
  .ok ((frame.withPacket packet).setPayloadSize (packet.length - padLen - frame.headerSize))

/-- Two cipher operations that undo each other and keep the length. -/
def MutuallyInverse (protect unprotect : Octets → Except SrtpErrStatus Octets) : Prop :=
  ∀ packet, ∃ sent, protect packet = .ok sent ∧ sent.length = packet.length ∧
    unprotect sent = .ok packet

/-- What the receiver gets from the frame that left the sender has the payload
    that was sent. -/
def Delivered (protect unprotect : Octets → Except SrtpErrStatus Octets) (frame : DataFrame) :
    Prop :=
  ∃ sent received, onSendData protect frame = .ok sent ∧
    onReceiveData unprotect sent = .ok received ∧
    received.payloadSize = frame.payloadSize ∧ received.payload = frame.payload

/-- A packet does not end like padding: its last octet is zero, or the octets
    that this would make padding are not all zero. -/
def EndsUnlikePadding (packet : Octets) : Prop :=
  ∀ last before, packet.reverse = last :: before →
    last = 0 ∨ (before.take (last.toNat - 1)).any (· ≠ 0) = true

/-- A payload that needs padding has room for it, and one that does not is not
    taken for padded. -/
def PaddingKept (frame : DataFrame) : Prop :=
  if frame.payloadSize % 16 = 0 then EndsUnlikePadding frame.packet
  else frame.headerSize + frame.payloadSize + encPadLen frame.payloadSize.toNat ≤
    frame.theArray.length

section Check

theorem encPadLen_pos (n : Nat) : 1 ≤ encPadLen n := by
  unfold encPadLen
  omega

theorem length_encPad (n : Nat) : (encPad n).length = encPadLen n := by
  have h := encPadLen_pos n
  simp only [encPad, List.length_append, List.length_replicate, List.length_singleton]
  omega

/-- The loop finds an octet that is not zero, if there is one. -/
theorem zerosBack_eq_false (k : Nat) (l : Octets) :
    zerosBack k l = .ok false ↔ (l.take k).any (· ≠ 0) = true := by
  induction l generalizing k with
  | nil => cases k <;> simp only [zerosBack, List.take_nil, List.any_nil, reduceCtorEq,
      Bool.false_eq_true, Except.ok.injEq, Bool.true_eq_false]
  | cons b l ih =>
      cases k with
      | zero => simp only [zerosBack, List.take_zero, List.any_nil, Except.ok.injEq,
          Bool.true_eq_false, Bool.false_eq_true]
      | succ k =>
          rw [zerosBack, List.take_succ_cons, List.any_cons]
          by_cases hb : b = 0
          · rw [if_neg (not_not.mpr hb), ih k, hb]
            simp only [ne_eq, not_true_eq_false, decide_false, Bool.false_or]
          · rw [if_pos hb]
            simp only [ne_eq, hb, not_false_eq_true, decide_true, Bool.true_or]

/-- The loop runs through zeros. -/
theorem zerosBack_replicate (k : Nat) (l : Octets) :
    zerosBack k (List.replicate k 0 ++ l) = .ok true := by
  induction k with
  | zero => rfl
  | succ k ih =>
      rw [List.replicate_succ, List.cons_append, zerosBack, if_neg (not_not.mpr rfl), ih]

/-- The receiver recognizes the sender's padding. -/
theorem checkDecPad_encPad (packet : Octets) (n : Nat) :
    checkDecPad (packet ++ encPad n) = .ok (encPadLen n) := by
  have hpos := encPadLen_pos n
  have hle : encPadLen n ≤ 16 := Nat.sub_le _ _
  have hlast : (UInt8.ofNat (encPadLen n)).toNat = encPadLen n := by
    rw [UInt8.toNat_ofNat']
    omega
  have hrev : (packet ++ encPad n).reverse = UInt8.ofNat (encPadLen n) ::
      (List.replicate (encPadLen n - 1) 0 ++ packet.reverse) := by
    simp only [encPad, List.reverse_append, List.reverse_cons, List.reverse_nil,
      List.reverse_replicate, List.nil_append, List.cons_append]
  rw [checkDecPad, hrev]
  simp only [hlast, zerosBack_replicate, Except.map, if_true]

/-- Nothing is stripped from a packet exactly if it does not end like padding. -/
theorem checkDecPad_eq_zero (packet : Octets) (hne : packet ≠ []) :
    checkDecPad packet = .ok 0 ↔ EndsUnlikePadding packet := by
  cases hrev : packet.reverse with
  | nil => exact absurd (List.reverse_eq_nil_iff.mp hrev) hne
  | cons last before =>
      have hends : EndsUnlikePadding packet ↔
          last = 0 ∨ zerosBack (last.toNat - 1) before = .ok false := by
        rw [EndsUnlikePadding, hrev, zerosBack_eq_false]
        constructor
        · intro h
          exact h last before rfl
        · rintro h _ _ heq
          obtain ⟨rfl, rfl⟩ := List.cons.inj heq
          exact h
      simp only [checkDecPad, hrev, hends]
      by_cases hzero : last = 0
      · rw [hzero]
        simp only [UInt8.toNat_zero, Nat.zero_sub, zerosBack, Except.map, if_true, true_or]
      have hnat : last.toNat ≠ 0 := fun h => hzero (UInt8.toNat_inj.mp h)
      cases zerosBack (last.toNat - 1) before with
      | error stop => simp only [Except.map, reduceCtorEq, hzero, or_self]
      | ok padded =>
          cases padded <;> simp only [Except.map, if_true, hnat, hzero, Except.ok.injEq,
            Bool.false_eq_true, if_false, or_true, Bool.true_eq_false, or_self]

end Check

section Frames

variable {frame : DataFrame}

theorem DataFrame.Valid.length_packet (hf : frame.Valid) :
    (frame.packet.length : Int) = frame.headerSize + frame.payloadSize := by
  have h12 := hf.header
  have hnonneg := hf.nonneg
  have hin := hf.inside
  rw [DataFrame.packet, List.length_take]
  omega

/-- A frame that a packet was written into holds that packet. -/
theorem packet_withPacket (frame : DataFrame) (packet : Octets) :
    ((frame.withPacket packet).setPayloadSize (packet.length - frame.headerSize)).packet =
      packet := by
  have hlen : (frame.headerSize + (packet.length - frame.headerSize : Int)).toNat =
      packet.length := by omega
  simp only [DataFrame.packet, DataFrame.setPayloadSize, DataFrame.withPacket, hlen, setMinSize,
    overwrite, List.take_zero, List.nil_append, List.append_assoc, List.take_left]

/-- Its payload is the part of the packet after the header. -/
theorem payload_withPacket (frame : DataFrame) (packet : Octets) (sz : Int)
    (h : frame.headerSize + sz.toNat ≤ packet.length) :
    ((frame.withPacket packet).setPayloadSize sz).payload =
      (packet.drop frame.headerSize).take sz.toNat := by
  simp only [DataFrame.payload, DataFrame.setPayloadSize, DataFrame.withPacket, setMinSize,
    overwrite, List.take_zero, List.nil_append, List.append_assoc]
  rw [List.drop_append_of_le_length (by omega), List.take_append_of_le_length (by
    rw [List.length_drop]; omega)]

/-- The payload of a packet. -/
theorem DataFrame.Valid.payload_eq (hf : frame.Valid) (rest : Octets) :
    ((frame.packet ++ rest).drop frame.headerSize).take frame.payloadSize.toNat =
      frame.payload := by
  have hnonneg := hf.nonneg
  have hlen := hf.length_packet
  have hsum : (frame.headerSize + frame.payloadSize).toNat =
      frame.headerSize + frame.payloadSize.toNat := by omega
  rw [List.drop_append_of_le_length (by omega), List.take_append_of_le_length (by
    rw [List.length_drop]; omega), DataFrame.packet, DataFrame.payload, hsum, List.drop_take,
    Nat.add_sub_cancel_left, List.take_take, Nat.min_self]

/-- Without padding the frame goes out as it is. -/
theorem padPayload_blocks (hf : frame.Valid) (h : frame.payloadSize % 16 = 0) :
    ∃ padded, padPayload frame = .ok padded ∧ padded.headerSize = frame.headerSize ∧
      padded.packet = frame.packet := by
  have hlen := hf.length_packet
  refine ⟨frame.setPayloadSize frame.payloadSize, ?_, rfl, ?_⟩
  · rw [padPayload, if_neg (not_not.mpr h)]
  · rw [DataFrame.packet, List.length_take] at hlen
    simp only [DataFrame.packet, DataFrame.setPayloadSize, setMinSize]
    rw [List.take_append_of_le_length (by omega)]

/-- With room for it, the padding comes after the payload. -/
theorem padPayload_room (hf : frame.Valid) (h : frame.payloadSize % 16 ≠ 0)
    (hroom : frame.headerSize + frame.payloadSize + encPadLen frame.payloadSize.toNat ≤
      frame.theArray.length) :
    ∃ padded, padPayload frame = .ok padded ∧ padded.headerSize = frame.headerSize ∧
      padded.packet = frame.packet ++ encPad frame.payloadSize.toNat := by
  have hnonneg := hf.nonneg
  have hlen := length_encPad frame.payloadSize.toNat
  have hin : inside frame.theArray (frame.headerSize + frame.payloadSize.toNat)
      (encPadLen frame.payloadSize.toNat) = .ok () := by
    rw [inside, if_pos (by omega)]
  have hpad : padPayload frame = .ok
      ({ frame with
          theArray := overwrite frame.theArray (frame.headerSize + frame.payloadSize.toNat)
            (encPad frame.payloadSize.toNat) }.setPayloadSize
        (frame.payloadSize + encPadLen frame.payloadSize.toNat)) := by
    rw [padPayload, if_pos h, setEncPad, hin]
    rfl
  refine ⟨_, hpad, rfl, ?_⟩
  have hend : (frame.headerSize +
      (frame.payloadSize + encPadLen frame.payloadSize.toNat) : Int).toNat =
      frame.headerSize + frame.payloadSize.toNat + (encPad frame.payloadSize.toNat).length := by
    omega
  have hstart : (frame.headerSize + frame.payloadSize).toNat =
      frame.headerSize + frame.payloadSize.toNat := by omega
  have htake : (frame.theArray.take (frame.headerSize + frame.payloadSize.toNat)).length =
      frame.headerSize + frame.payloadSize.toNat := by
    rw [List.length_take]
    omega
  have hpacket : (frame.theArray.take (frame.headerSize + frame.payloadSize.toNat) ++
      encPad frame.payloadSize.toNat).length =
      frame.headerSize + frame.payloadSize.toNat + (encPad frame.payloadSize.toNat).length := by
    rw [List.length_append, htake]
  simp only [DataFrame.packet, DataFrame.setPayloadSize, setMinSize, hend, hstart, overwrite]
  rw [List.append_assoc _ _ (List.replicate _ _), ← hpacket, List.take_left]

/-- Without room for it, the padding is written outside of the buffer. -/
theorem padPayload_noRoom (hf : frame.Valid) (h : frame.payloadSize % 16 ≠ 0)
    (hroom : ¬ frame.headerSize + frame.payloadSize + encPadLen frame.payloadSize.toNat ≤
      frame.theArray.length) : padPayload frame = .error .fault := by
  have hnonneg := hf.nonneg
  rw [padPayload, if_pos h, setEncPad, inside, if_neg (by omega)]
  rfl

/-- The cipher operations cancel out: what matters is the packet that went
    into the first one. -/
theorem delivered_iff {protect unprotect : Octets → Except SrtpErrStatus Octets}
    (hinv : MutuallyInverse protect unprotect) {padded : DataFrame}
    (hpad : padPayload frame = .ok padded) (hf : frame.Valid)
    (hheader : padded.headerSize = frame.headerSize)
    {rest : Octets} (hpacket : padded.packet = frame.packet ++ rest) :
    Delivered protect unprotect frame ↔ checkDecPad padded.packet = .ok rest.length := by
  have hnonneg := hf.nonneg
  have hlen := hf.length_packet
  rcases hinv padded.packet with ⟨sent, hprotect, hsent, hunprotect⟩
  have hsend : onSendData protect frame = .ok
      ((padded.withPacket sent).setPayloadSize (sent.length - padded.headerSize)) := by
    simp only [onSendData, hpad, hprotect, orStop, bind, Except.bind]
  have hlength : padded.packet.length = frame.packet.length + rest.length := by
    rw [hpacket, List.length_append]
  have hcomp : onReceiveData unprotect
      ((padded.withPacket sent).setPayloadSize (sent.length - padded.headerSize)) =
      (checkDecPad padded.packet).map fun (padLen : Nat) =>
        (((padded.withPacket sent).setPayloadSize (sent.length - padded.headerSize)).withPacket
          padded.packet).setPayloadSize
            (padded.packet.length - padLen - padded.headerSize) := by
    rw [onReceiveData, packet_withPacket, hunprotect]
    simp only [orStop, bind, Except.bind, Except.map]
    cases checkDecPad padded.packet <;> rfl
  rw [Delivered, hsend]
  constructor
  · rintro ⟨g, received, hg, hreceive, hsize, -⟩
    rw [Except.ok.injEq] at hg
    rw [← hg, hcomp, Srtp.map_eq_ok] at hreceive
    rcases hreceive with ⟨padLen, hcheck, hreceived⟩
    have hsz : (padded.packet.length - padLen - padded.headerSize : Int) = frame.payloadSize := by
      rw [← hsize, ← hreceived]
      rfl
    rw [hcheck, show padLen = rest.length by omega]
  · intro hcheck
    refine ⟨_, _, rfl, by rw [hcomp, hcheck]; rfl, ?_, ?_⟩
    · change (padded.packet.length - rest.length - padded.headerSize : Int) = frame.payloadSize
      omega
    · have hsz : (padded.packet.length - rest.length - padded.headerSize : Int) =
          frame.payloadSize := by omega
      beta_reduce
      rw [hsz, payload_withPacket _ _ _ (by
        change padded.headerSize + frame.payloadSize.toNat ≤ padded.packet.length
        omega)]
      change (padded.packet.drop padded.headerSize).take frame.payloadSize.toNat = frame.payload
      rw [hpacket, hheader, hf.payload_eq]

end Frames

/-- The payload that the receiver gets is the payload that was sent exactly if
    its padding is kept apart from it. -/
theorem padding_transparent {protect unprotect : Octets → Except SrtpErrStatus Octets}
    (hinv : MutuallyInverse protect unprotect) (frame : DataFrame) (hf : frame.Valid) :
    Delivered protect unprotect frame ↔ PaddingKept frame := by
  unfold PaddingKept
  by_cases hblocks : frame.payloadSize % 16 = 0
  · rw [if_pos hblocks]
    rcases padPayload_blocks hf hblocks with ⟨padded, hpad, hheader, hpacket⟩
    have hne : frame.packet ≠ [] := by
      intro hnil
      have hlen := hf.length_packet
      have h12 := hf.header
      have hnonneg := hf.nonneg
      rw [hnil, List.length_nil] at hlen
      omega
    have hrest : padded.packet = frame.packet ++ [] := by rw [hpacket, List.append_nil]
    rw [delivered_iff hinv hpad hf hheader hrest, hpacket]
    exact checkDecPad_eq_zero frame.packet hne
  rw [if_neg hblocks]
  by_cases hroom : frame.headerSize + frame.payloadSize + encPadLen frame.payloadSize.toNat ≤
      frame.theArray.length
  · rcases padPayload_room hf hblocks hroom with ⟨padded, hpad, hheader, hpacket⟩
    rw [delivered_iff hinv hpad hf hheader hpacket, hpacket, length_encPad]
    exact iff_of_true (checkDecPad_encPad _ _) hroom
  · refine iff_of_false ?_ hroom
    rintro ⟨sent, received, hsend, -⟩
    rw [onSendData, padPayload_noRoom hf hblocks hroom] at hsend
    exact absurd hsend (by simp only [bind, Except.bind, reduceCtorEq, not_false_eq_true])

section Samples

/-- A frame with one block of payload that ends with a given octet. -/
def sampleBlock (last : UInt8) : DataFrame :=
  { theArray := [0x80, 0, 0, 1, 0, 0, 0, 0, 0, 0, 0, 1] ++ List.replicate 15 0x55 ++ [last]
    headerSize := 12
    payloadSize := 16
    paddingSize := 0 }

theorem sampleBlock_valid (last : UInt8) : (sampleBlock last).Valid :=
  ⟨Nat.le_refl 12, Int.natCast_nonneg 16, Int.le_refl 28⟩

/-- A block that ends with a two is kept, since the octet before it is not
    zero. -/
theorem padding_transparent_block :
    Delivered Except.ok Except.ok (sampleBlock 2) ↔ PaddingKept (sampleBlock 2) :=
  padding_transparent (fun packet => ⟨packet, rfl, rfl, rfl⟩) (sampleBlock 2) (sampleBlock_valid 2)

/-- A block that ends with a one loses it: the receiver takes it for one octet
    of padding, and the sender has added none. -/
theorem padding_strips_payload :
    MutuallyInverse Except.ok Except.ok ∧ (sampleBlock 1).Valid ∧
      ¬ Delivered Except.ok Except.ok (sampleBlock 1) := by
  refine ⟨fun packet => ⟨packet, rfl, rfl, rfl⟩, sampleBlock_valid 1, ?_⟩
  rintro ⟨sent, received, hsend, hreceive, hsize, -⟩
  have hsent : onSendData Except.ok (sampleBlock 1) = .ok (sampleBlock 1) := by decide +kernel
  rw [hsent, Except.ok.injEq] at hsend
  have hlost : (onReceiveData Except.ok (sampleBlock 1)).map DataFrame.payloadSize = .ok 15 := by
    decide +kernel
  rw [hsend, hreceive, Except.map, Except.ok.injEq, hsize] at hlost
  exact absurd hlost (by decide)

end Samples

end Rtp

end CryptoOpal

import CryptoOpal.Rtp.ControlFrame

/-!
# Compound Packets

Several RTCP packets in one frame: put together with `StartNewPacket`,
`SetPayloadType`, `SetPayloadSize`, the payload and `EndPacket`, sent up to
`GetCompoundSize`, and walked with `ReadNextPacket`.

Every packet comes back but for padding, with two exceptions. `EndPacket`
starts the padding one octet too early, so that a payload that is not made of
whole words loses its last octet. And `GetCompoundSize` reads the size of the
packet after the last one, so the buffer must not end there (`spare`).

## Main definitions

* `build`: The frame that holds a list of packets.
* `sent`, `received`: The octets that leave, and the packets found in them.
* `padded`: A packet with its payload filled up.
* `Kept`: A payload that survives.

## Theorems

* `build_eq`: The buffer of a frame that has been built.
* `readPackets_iff`: When the walk finds the packets again.
* `compound_roundTrip`: When a list of packets comes back.
-/

namespace CryptoOpal

namespace Rtp

open Lib (Octets slice overwrite bigEndian ofBigEndian)
open Srtp (Stop inside bind_eq_ok)

/-- An RTCP packet: its type and its payload. -/
structure ControlPacket where
  type : UInt8
  payload : Octets
  deriving DecidableEq

namespace ControlFrame

/-- Copy to `GetPayloadPtr()`. -/
def fill (frame : ControlFrame) : Octets → Except Stop ControlFrame
  | [] => .ok frame
  | data => do
    let ptr ← frame.getPayloadPtr
    match ptr with
    | none => .error .fault
    | some off => (writeAt frame.theArray off data).map fun array => { frame with theArray := array }

/-- The calls that add one packet. -/
def addPacket (frame : ControlFrame) (p : ControlPacket) : Except Stop ControlFrame := do
  let frame ← frame.startNewPacket
  let frame ← frame.setPayloadType p.type
  let frame ← frame.setPayloadSize p.payload.length
  let frame ← frame.fill p.payload
  frame.endPacket

/-- The frame with a list of packets added. -/
def build : ControlFrame → List ControlPacket → Except Stop ControlFrame
  | frame, [] => .ok frame
  | frame, p :: packets => do
    let frame ← frame.addPacket p
    build frame packets

/-- The octets that are sent. -/
def sent (frame : ControlFrame) : Except Stop Octets := do
  let len ← frame.getCompoundSize
  readAt frame.theArray 0 len

/-- The current packet, as it is found by a reader. -/
def packet (frame : ControlFrame) : Except Stop ControlPacket := do
  let t ← frame.getPayloadType
  let ptr ← frame.getPayloadPtr
  match ptr with
  | none => .ok ⟨t, []⟩
  | some off => do
    let size ← frame.getPayloadSize
    let payload ← readAt frame.theArray off size
    .ok ⟨t, payload⟩

/-- The packets from the current one on. -/
def readPackets : Nat → ControlFrame → Except Stop (List ControlPacket)
  | 0, _ => .ok []
  | fuel + 1, frame => do
    let p ← frame.packet
    let next ← frame.readNextPacket
    match next with
    | (false, _) => .ok [p]
    | (true, frame) => (readPackets fuel frame).map (p :: ·)

end ControlFrame

/-- `ReadControlPDU`: the packets in the octets that were received. They are
    ignored if there are too few for the first packet. -/
def received (octets : Octets) : Except Stop (List ControlPacket) :=
  let frame : ControlFrame := ⟨octets, 0, 0⟩
  if octets.length < 4 then .ok []
  else do
    let size ← frame.getPayloadSize
    match decide (octets.length < 4 + size) with
    | true => .ok []
    | false => frame.readPackets octets.length

/-- A packet with its payload filled up to whole words. -/
def padded (p : ControlPacket) : ControlPacket :=
  { p with
    payload := p.payload ++ List.replicate (roundUp4 p.payload.length - p.payload.length) 0 }

/-- A payload that survives: its number of words is a `WORD`, and where the
    padding is written too early there is a zero. -/
def Kept (p : ControlPacket) : Prop :=
  p.payload.length ≤ 262140 ∧ (p.payload.length % 4 = 0 ∨ p.payload.getLast? = some 0)

/-- A packet in the buffer. -/
def stored (p : ControlPacket) : Octets :=
  packetHeader 0x80 p.type (roundUp4 p.payload.length / 4) ++ endPayload p.payload

/-- The packets in the buffer. -/
def encode (packets : List ControlPacket) : Octets := (packets.map stored).flatten

/-- The room behind a packet with `len` octets of payload, if there were `k`
    octets before it was added. -/
def room (k len : Nat) : Nat := max (k - 4) (4 * roundUp4 len) - roundUp4 len

/-- The room behind the last packet, if there were `k` octets before the first
    one. -/
def spare : Nat → List ControlPacket → Nat
  | k, [] => k
  | k, p :: packets => spare (room k p.payload.length) packets

section Building

variable {pre : Octets} {k : Nat} {p : ControlPacket} {packets : List ControlPacket}

/-- The payload is written right after the header. -/
theorem fill_eq (t : UInt8) (words ps : Nat) (data : Octets) (hlen : data.length ≤ k)
    (hwords : words % 65536 = 0 → data = []) :
    ControlFrame.fill ⟨pre ++ packetHeader 0x80 t words ++ List.replicate k 0, pre.length, ps⟩
        data =
      .ok ⟨pre ++ packetHeader 0x80 t words ++ (data ++ List.replicate (k - data.length) 0),
        pre.length, ps⟩ := by
  cases data with
  | nil => rfl
  | cons x data =>
      have hne : words % 65536 ≠ 0 := fun h => absurd (hwords h) (List.cons_ne_nil x data)
      have hzeros : List.replicate k (0 : UInt8) ≠ [] := by
        intro hnil
        rw [List.replicate_eq_nil_iff] at hnil
        rw [hnil, List.length_cons] at hlen
        exact absurd hlen (Nat.not_succ_le_zero _)
      have hwrite := writeAt_zeros (pre ++ packetHeader 0x80 t words) (x :: data) hlen
      rw [List.length_append, length_packetHeader] at hwrite
      rw [ControlFrame.fill, getPayloadPtr_eq hne hzeros]
      · simp only [bind, Except.bind]
        rw [hwrite, List.append_assoc (pre ++ packetHeader 0x80 t words)]
        rfl
      · exact List.cons_ne_nil x data

/-- A payload that `GetPayloadPtr` takes for an empty one cannot be written. -/
theorem fill_fault (rest : Octets) (t : UInt8) (words ps : Nat) (data : Octets)
    (hdata : data ≠ []) (hwords : words % 65536 = 0) :
    ControlFrame.fill ⟨pre ++ packetHeader 0x80 t words ++ rest, pre.length, ps⟩ data =
      .error .fault := by
  cases data with
  | nil => exact absurd rfl hdata
  | cons x data =>
      rw [ControlFrame.fill, getPayloadPtr_none hwords]
      · rfl
      · exact List.cons_ne_nil x data

/-- The calls up to the payload. -/
theorem addPacket_eq (p : ControlPacket) :
    ControlFrame.addPacket ⟨pre ++ List.replicate k 0, pre.length, 0⟩ p = (do
      let frame ← ControlFrame.fill ⟨pre ++ packetHeader 0x80 p.type
          (roundUp4 p.payload.length / 4) ++
          List.replicate (max (k - 4) (4 * roundUp4 p.payload.length)) 0, pre.length,
        p.payload.length⟩ p.payload
      frame.endPacket) := by
  have hsize : ControlFrame.setPayloadSize
      ⟨pre ++ packetHeader 0x80 p.type 0 ++ List.replicate (k - 4) 0, pre.length, 0⟩
        p.payload.length =
      .ok ⟨pre ++ packetHeader 0x80 p.type (roundUp4 p.payload.length / 4) ++
        List.replicate (max (k - 4) (4 * roundUp4 p.payload.length)) 0, pre.length,
          p.payload.length⟩ :=
    setPayloadSize_eq [] p.payload.length
  rw [ControlFrame.addPacket, startNewPacket_eq]
  simp only [bind, Except.bind, setPayloadType_eq, hsize]

/-- A packet whose payload can be written is stored behind the others. -/
theorem addPacket_stored (hwords : roundUp4 p.payload.length / 4 % 65536 = 0 → p.payload = []) :
    ControlFrame.addPacket ⟨pre ++ List.replicate k 0, pre.length, 0⟩ p =
      .ok ⟨pre ++ stored p ++ List.replicate (room k p.payload.length) 0,
        (pre ++ stored p).length, 0⟩ := by
  have hle := le_roundUp4 p.payload.length
  rw [addPacket_eq, fill_eq _ _ _ _ (by omega) hwords]
  simp only [bind, Except.bind]
  rw [endPacket_eq p.payload (by omega), stored, room, Nat.sub_sub, Nat.add_sub_cancel' hle]
  simp only [List.append_assoc]

theorem addPacket_fault (hwords : roundUp4 p.payload.length / 4 % 65536 = 0)
    (hne : p.payload ≠ []) :
    ControlFrame.addPacket ⟨pre ++ List.replicate k 0, pre.length, 0⟩ p = .error .fault := by
  rw [addPacket_eq, fill_fault _ _ _ _ _ hne hwords]
  rfl

/-- A frame that has been built holds the packets, and zeros behind them. -/
theorem build_shape (packets : List ControlPacket) (pre : Octets) (k : Nat) {frame : ControlFrame}
    (h : ControlFrame.build ⟨pre ++ List.replicate k 0, pre.length, 0⟩ packets = .ok frame) :
    frame = ⟨pre ++ encode packets ++ List.replicate (spare k packets) 0,
      (pre ++ encode packets).length, 0⟩ := by
  induction packets generalizing pre k with
  | nil =>
      rw [ControlFrame.build, Except.ok.injEq] at h
      rw [← h, encode, List.map_nil, List.flatten_nil, List.append_nil, spare]
  | cons p packets ih =>
      by_cases hwords : roundUp4 p.payload.length / 4 % 65536 = 0 → p.payload = []
      · rw [ControlFrame.build, addPacket_stored hwords] at h
        rw [ih (pre ++ stored p) (room k p.payload.length) h, spare, encode, encode, List.map_cons,
          List.flatten_cons]
        simp only [List.append_assoc]
      · rcases Classical.not_imp.mp hwords with ⟨hzero, hne⟩
        rw [ControlFrame.build, addPacket_fault hzero hne] at h
        exact absurd h (by simp only [bind, Except.bind, reduceCtorEq, not_false_eq_true])

/-- The number of words of a payload that is not too long. -/
theorem words_lt (hlen : p.payload.length ≤ 262140) :
    roundUp4 p.payload.length / 4 % 65536 = roundUp4 p.payload.length / 4 := by
  unfold roundUp4
  omega

theorem build_ok (packets : List ControlPacket) (pre : Octets) (k : Nat)
    (hlen : ∀ p ∈ packets, p.payload.length ≤ 262140) :
    ControlFrame.build ⟨pre ++ List.replicate k 0, pre.length, 0⟩ packets =
      .ok ⟨pre ++ encode packets ++ List.replicate (spare k packets) 0,
        (pre ++ encode packets).length, 0⟩ := by
  have hok : ∃ frame, ControlFrame.build ⟨pre ++ List.replicate k 0, pre.length, 0⟩ packets =
      .ok frame := by
    induction packets generalizing pre k with
    | nil => exact ⟨_, rfl⟩
    | cons p packets ih =>
        have hwords : roundUp4 p.payload.length / 4 % 65536 = 0 → p.payload = [] := by
          intro hzero
          have hle := le_roundUp4 p.payload.length
          have hfour := four_mul_div p.payload.length
          rw [words_lt (hlen p List.mem_cons_self)] at hzero
          exact List.length_eq_zero_iff.mp (by omega)
        rw [ControlFrame.build, addPacket_stored hwords]
        exact ih (pre ++ stored p) (room k p.payload.length)
          fun q hq => hlen q (List.mem_cons_of_mem p hq)
  rcases hok with ⟨frame, hframe⟩
  rw [hframe, build_shape packets pre k hframe]

/-- What is sent, as long as the buffer goes on behind the last packet. -/
theorem sent_eq : ControlFrame.sent ⟨pre ++ List.replicate k 0, pre.length, 0⟩ =
    if 4 ≤ k then .ok pre else .error .fault := by
  rw [ControlFrame.sent, getCompoundSize_eq]
  by_cases hk : 4 ≤ k
  · have hread := readAt_middle [] pre (List.replicate k 0)
    rw [if_pos hk, if_pos hk]
    exact hread
  · rw [if_neg hk, if_neg hk]
    rfl

end Building

section Reading

variable {pre rest : Octets} {p : ControlPacket} {packets : List ControlPacket} {ps : Nat}

/-- A packet in the buffer, with its header apart. -/
theorem split_stored : pre ++ stored p ++ rest =
    pre ++ packetHeader 0x80 p.type (roundUp4 p.payload.length / 4) ++
      (endPayload p.payload ++ rest) := by
  simp only [stored, List.append_assoc]

/-- The packet that a reader finds. -/
theorem packet_eq : ControlFrame.packet ⟨pre ++ stored p ++ rest, pre.length, ps⟩ =
    .ok ⟨p.type, (endPayload p.payload).take (4 * (roundUp4 p.payload.length / 4 % 65536))⟩ := by
  have hlen := length_endPayload p.payload
  have hfour := four_mul_div p.payload.length
  rw [split_stored, ControlFrame.packet, getPayloadType_eq]
  by_cases hwords : roundUp4 p.payload.length / 4 % 65536 = 0
  · rw [getPayloadPtr_none hwords, hwords]
    rfl
  · have hne : endPayload p.payload ++ rest ≠ [] := by
      intro hnil
      rw [List.append_eq_nil_iff] at hnil
      rw [hnil.1, List.length_nil] at hlen
      omega
    have hread := readAt_take (pre ++ packetHeader 0x80 p.type (roundUp4 p.payload.length / 4))
      (endPayload p.payload) rest
      (show 4 * (roundUp4 p.payload.length / 4 % 65536) ≤ (endPayload p.payload).length by omega)
    rw [List.length_append, length_packetHeader, List.append_assoc _ _ rest] at hread
    rw [getPayloadPtr_eq hwords hne]
    simp only [bind, Except.bind, getPayloadSize_eq, hread]

/-- A reader that knows the size of a packet goes to its end. -/
theorem next_offset (hlen : p.payload.length ≤ 262140) :
    pre.length + (4 * (roundUp4 p.payload.length / 4 % 65536) + 4) =
      (pre ++ stored p).length := by
  rw [words_lt hlen, four_mul_div, stored]
  simp only [List.length_append, length_packetHeader, length_endPayload]
  omega

theorem readNextPacket_last (hlen : p.payload.length ≤ 262140) :
    ControlFrame.readNextPacket ⟨pre ++ stored p ++ [], pre.length, ps⟩ =
      .ok (false, ⟨pre ++ stored p ++ [], (pre ++ stored p).length, ps⟩) := by
  rw [ControlFrame.readNextPacket, split_stored, getPayloadSize_eq, ← split_stored]
  simp only [bind, Except.bind]
  rw [next_offset hlen, if_pos]
  simp only [List.append_nil]
  omega

theorem readNextPacket_next (hlen : p.payload.length ≤ 262140) (q : ControlPacket) :
    ControlFrame.readNextPacket ⟨pre ++ stored p ++ (stored q ++ rest), pre.length, ps⟩ =
      .ok (true, ⟨pre ++ stored p ++ stored q ++ rest, (pre ++ stored p).length, ps⟩) := by
  have hfour := four_mul_div q.payload.length
  have hfits : (pre ++ stored p).length + 4 * (roundUp4 q.payload.length / 4 % 65536) + 4 ≤
      (pre ++ stored p ++ stored q ++ rest).length := by
    simp only [List.length_append, stored, length_packetHeader, length_endPayload]
    omega
  have hmore : ¬ (pre ++ stored p ++ stored q ++ rest).length < (pre ++ stored p).length + 4 := by
    omega
  have hsize : ControlFrame.getPayloadSize
      ⟨pre ++ stored p ++ stored q ++ rest, (pre ++ stored p).length, ps⟩ =
        .ok (4 * (roundUp4 q.payload.length / 4 % 65536)) := by
    rw [split_stored, getPayloadSize_eq]
  rw [ControlFrame.readNextPacket, split_stored, getPayloadSize_eq, ← split_stored]
  simp only [bind, Except.bind]
  rw [next_offset hlen, ← List.append_assoc, if_neg hmore, hsize]
  simp only [Except.map, hfits, decide_true]

/-- The walk begins with the current packet. -/
theorem readPackets_head {fuel : Nat} {l : List ControlPacket}
    (h : ControlFrame.readPackets (fuel + 1) ⟨pre ++ stored p ++ rest, pre.length, ps⟩ = .ok l) :
    ∃ tail, l = ⟨p.type, (endPayload p.payload).take
      (4 * (roundUp4 p.payload.length / 4 % 65536))⟩ :: tail := by
  rw [ControlFrame.readPackets, packet_eq] at h
  simp only [bind, Except.bind] at h
  rcases hnext : ControlFrame.readNextPacket ⟨pre ++ stored p ++ rest, pre.length, ps⟩ with
    e | ⟨more, next⟩
  · rw [hnext] at h
    exact absurd h (by simp only [reduceCtorEq, not_false_eq_true])
  · rw [hnext] at h
    cases more with
    | false => exact ⟨[], (Except.ok.inj h).symm⟩
    | true =>
        rcases Srtp.map_eq_ok.mp h with ⟨tail, -, htail⟩
        exact ⟨tail, htail.symm⟩

/-- Padding that starts one octet too early is harmless where there is a zero
    already. -/
theorem endPayload_eq_iff (payload : Octets) :
    endPayload payload =
        payload ++ List.replicate (roundUp4 payload.length - payload.length) 0 ↔
      payload.length % 4 = 0 ∨ payload.getLast? = some 0 := by
  unfold endPayload
  by_cases hwords : payload.length % 4 = 0
  · have hround : roundUp4 payload.length = payload.length := by unfold roundUp4; omega
    rw [if_pos hwords, hround, Nat.sub_self, List.replicate_zero, List.append_nil]
    exact iff_of_true rfl (Or.inl hwords)
  · rw [if_neg hwords, or_iff_right hwords]
    rcases List.eq_nil_or_concat payload with rfl | ⟨q, x, rfl⟩
    · exact absurd rfl hwords
    rw [List.concat_eq_append, List.dropLast_concat, List.getLast?_concat, List.append_assoc,
      List.append_cancel_left_eq, List.replicate_succ, List.singleton_append, List.cons.injEq,
      Option.some.injEq, and_iff_left rfl, eq_comm]

/-- What a reader finds of a packet is the padded packet exactly if its payload
    survives. -/
theorem kept_iff : (⟨p.type, (endPayload p.payload).take
    (4 * (roundUp4 p.payload.length / 4 % 65536))⟩ : ControlPacket) = padded p ↔ Kept p := by
  have hlen := length_endPayload p.payload
  have hle := le_roundUp4 p.payload.length
  have hfour := four_mul_div p.payload.length
  -- A number of words that is cut off leaves too little of the payload.
  have hfits : (endPayload p.payload).take (4 * (roundUp4 p.payload.length / 4 % 65536)) =
      (padded p).payload → p.payload.length ≤ 262140 := by
    intro h
    have hsizes := congrArg List.length h
    rw [padded, List.length_take, hlen, List.length_append, List.length_replicate] at hsizes
    omega
  have hall : p.payload.length ≤ 262140 →
      (endPayload p.payload).take (4 * (roundUp4 p.payload.length / 4 % 65536)) =
        endPayload p.payload := by
    intro h
    rw [words_lt h, hfour, ← hlen, List.take_length]
  rw [Kept, ← endPayload_eq_iff, ControlPacket.mk.injEq,
    and_iff_right (show p.type = (padded p).type from rfl)]
  refine ⟨fun h => ⟨hfits h, ?_⟩, fun h => ?_⟩
  · rw [← hall (hfits h)]
    exact h
  · rw [hall h.1]
    exact h.2

/-- The walk finds the packets again exactly if all payloads survive. -/
theorem readPackets_iff (q : ControlPacket) (packets : List ControlPacket) (pre : Octets)
    (fuel : Nat) (hfuel : packets.length < fuel) :
    ControlFrame.readPackets fuel ⟨pre ++ encode (q :: packets), pre.length, ps⟩ =
        .ok ((q :: packets).map padded) ↔
      ∀ p ∈ q :: packets, Kept p := by
  induction packets generalizing q pre fuel with
  | nil =>
      cases fuel with
      | zero => exact absurd hfuel (Nat.not_lt_zero _)
      | succ fuel =>
          have hencode : pre ++ encode [q] = pre ++ stored q ++ [] := by
            rw [encode, List.map_singleton, List.flatten_cons, List.flatten_nil, List.append_assoc]
          rw [List.map_singleton, List.forall_mem_singleton, hencode]
          constructor
          · intro h
            rcases readPackets_head h with ⟨tail, htail⟩
            exact kept_iff.mp (List.cons.inj htail).1.symm
          · intro hq
            rw [ControlFrame.readPackets, packet_eq, kept_iff.mpr hq]
            simp only [bind, Except.bind, readNextPacket_last hq.1]
  | cons q' packets ih =>
      cases fuel with
      | zero => exact absurd hfuel (Nat.not_lt_zero _)
      | succ fuel =>
          have hencode : pre ++ encode (q :: q' :: packets) =
              pre ++ stored q ++ (stored q' ++ encode packets) := by
            simp only [encode, List.map_cons, List.flatten_cons, List.append_assoc]
          have hrest : pre ++ stored q ++ stored q' ++ encode packets =
              pre ++ stored q ++ encode (q' :: packets) := by
            simp only [encode, List.map_cons, List.flatten_cons, List.append_assoc]
          have htail := ih q' (pre ++ stored q) fuel (Nat.lt_of_succ_lt_succ hfuel)
          rw [List.forall_mem_cons, hencode]
          by_cases hq : Kept q
          · rw [and_iff_right hq, ← htail, ControlFrame.readPackets, packet_eq, kept_iff.mpr hq]
            simp only [bind, Except.bind, readNextPacket_next hq.1]
            rw [hrest, Srtp.map_eq_ok, List.map_cons]
            simp only [List.cons.injEq, true_and, exists_eq_right]
          · refine iff_of_false (fun h => hq ?_) (fun h => hq h.1)
            rcases readPackets_head h with ⟨tail, htail⟩
            exact kept_iff.mp (List.cons.inj htail).1.symm

end Reading

/-- What becomes of a list of packets: the frame is built in a buffer of `sz`
    octets and sent, and the reader walks what was sent. -/
def roundTrip (sz : Nat) (packets : List ControlPacket) : Except Stop (List ControlPacket) := do
  let frame ← (ControlFrame.new sz).build packets
  let octets ← frame.sent
  received octets

/-- The reader finds in the sent octets what the walk finds. -/
theorem received_encode (q : ControlPacket) (packets : List ControlPacket) :
    received (encode (q :: packets)) = ControlFrame.readPackets (encode (q :: packets)).length
      ⟨encode (q :: packets), 0, 0⟩ := by
  have hfour := four_mul_div q.payload.length
  have hencode : encode (q :: packets) = [] ++ stored q ++ encode packets := rfl
  have hsize : ControlFrame.getPayloadSize ⟨encode (q :: packets), 0, 0⟩ =
      .ok (4 * (roundUp4 q.payload.length / 4 % 65536)) := by
    rw [hencode, split_stored]
    exact getPayloadSize_eq
  have hlen : 4 + 4 * (roundUp4 q.payload.length / 4 % 65536) ≤ (encode (q :: packets)).length := by
    rw [hencode]
    simp only [List.length_append, stored, length_packetHeader, length_endPayload]
    omega
  rw [received]
  simp only [hsize, bind, Except.bind]
  rw [if_neg (by omega), decide_eq_false (by omega)]

/-- Every packet takes at least four octets. -/
theorem length_le_encode (packets : List ControlPacket) :
    packets.length ≤ (encode packets).length := by
  induction packets with
  | nil => exact Nat.zero_le _
  | cons p packets ih =>
      rw [encode] at ih
      rw [encode, List.map_cons, List.flatten_cons, List.length_append, List.length_cons, stored,
        List.length_append, length_packetHeader]
      omega

/-- A list of packets comes back, but for padding, exactly if the buffer goes on
    behind the last one, and every payload survives. -/
theorem compound_roundTrip (sz : Nat) (packets : List ControlPacket) :
    roundTrip sz packets = .ok (packets.map padded) ↔
      4 ≤ spare sz packets ∧ ∀ p ∈ packets, Kept p := by
  have hsent : ∀ octets, received octets = .ok (packets.map padded) → octets = encode packets →
      ∀ p ∈ packets, Kept p := by
    rintro octets hreceived rfl
    cases packets with
    | nil => exact List.forall_mem_nil _
    | cons q packets =>
        have hfuel := length_le_encode (q :: packets)
        rw [received_encode] at hreceived
        exact (readPackets_iff q packets [] _ hfuel).mp hreceived
  constructor
  · intro h
    simp only [roundTrip, bind_eq_ok] at h
    rcases h with ⟨frame, hbuild, octets, hoctets, hreceived⟩
    have hshape := build_shape packets [] sz hbuild
    rw [hshape, List.nil_append, sent_eq] at hoctets
    by_cases hspare : 4 ≤ spare sz packets
    · rw [if_pos hspare, Except.ok.injEq] at hoctets
      exact ⟨hspare, hsent octets hreceived hoctets.symm⟩
    · rw [if_neg hspare] at hoctets
      exact absurd hoctets (by simp only [reduceCtorEq, not_false_eq_true])
  · rintro ⟨hspare, hkept⟩
    have hbuild : (ControlFrame.new sz).build packets =
        .ok ⟨encode packets ++ List.replicate (spare sz packets) 0, (encode packets).length, 0⟩ :=
      build_ok packets [] sz fun p hp => (hkept p hp).1
    rw [roundTrip, hbuild]
    simp only [bind, Except.bind, sent_eq, if_pos hspare]
    cases packets with
    | nil => rfl
    | cons q packets =>
        have hfuel := length_le_encode (q :: packets)
        rw [received_encode]
        exact (readPackets_iff q packets [] _ hfuel).mpr hkept

/-- A payload of five octets in a frame of the usual size comes back without
    its last octet. -/
theorem compound_loses_octet :
    roundTrip 2048 [⟨202, [1, 2, 3, 4, 5]⟩] ≠ .ok ([⟨202, [1, 2, 3, 4, 5]⟩].map padded) := by
  decide +kernel

end Rtp

end CryptoOpal

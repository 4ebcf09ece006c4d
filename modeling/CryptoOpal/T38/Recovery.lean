import CryptoOpal.T38.Reading
import Mathlib.Data.List.Range

/-!
# Frames that are Recovered

The packets of a stream are counted without a bound; on the line a packet has the
low sixteen bits of its number. Some packets are lost, and some come twice.

The expected number is compared with the number of a packet as if neither ever
wrapped around. So a packet that comes twice is taken for a new one, and frames
lost where the numbers wrap around are not recovered although they are there.
Otherwise the frames come in the order in which they were sent, and all of them
that were received (`frames_recovered`).

## Main definitions

* `Stream`: What is sent.
* `Stream.Covers`: A packet carries a frame.
* `Stream.order`: The frames that received packets give.
* `Stream.Sound`: What has to be true of the next packet received.

## Theorems

* `reads_order`: What the calls return.
* `order_sound`: The frames are in order, and none that was received is left out.
* `frames_recovered`: Both for a whole stream.
-/

namespace CryptoOpal

namespace T38

open Lib (Octets)

/-- A stream of packets: payloads, how many secondaries each packet has, and the
datagrams. -/
structure Stream where
  payload : Nat → Octets
  secondaries : Nat → Nat
  datagram : Nat → Octets
  precedes : ∀ k, secondaries k ≤ k

namespace Stream

variable (st : Stream)

/-- Packet `k`: its `i`-th secondary is the payload of frame `k - i`. -/
def packet (k : Nat) : UdptlPacket where
  seqNumber := UInt16.ofNat k
  primaryIfpPacket := st.payload k
  secondaryIfpPackets := (List.range (st.secondaries k)).map fun i => st.payload (k - (i + 1))

/-- Frame `k`. -/
def frame (k : Nat) : Frame := ⟨UInt16.ofNat k, st.payload k⟩

/-- Packet `k` carries frame `d`. -/
def Covers (k d : Nat) : Prop := d ≤ k ∧ k ≤ d + st.secondaries k

/-- How many frames packet `k` gives besides its own. -/
def recovered (expected k : Nat) : Nat := min (k % 65536 - expected) (st.secondaries k)

/-- The frames that received packets give, with the expected number. -/
def order : Nat → List Nat → List Nat
  | _, [] => []
  | expected, k :: received =>
    List.range' (k - st.recovered expected k) (st.recovered expected k + 1) ++
      order (k % 65536 + 1) received

section Reading

variable {decode : Octets → Option UdptlPacket} {s : Receiver}

/-- A receiver that is to give `m` more payloads of packet `k`, and then expects a
number. -/
structure Holds (s : Receiver) (k m expected : Nat) : Prop where
  secondary : s.secondaryPacket = (m : Int) - 1
  received : 0 < m → s.receivedPacket = st.packet k ∧ m ≤ st.secondaries k ∧ m ≤ k % 65536 ∧
    expected = k % 65536 + 1
  number : m = 0 → s.expectedSequenceNumber = expected

theorem int32_small {x : Int} (hlo : -65536 ≤ x) (hhi : x ≤ 65536) : int32 x = x := by
  rw [int32, Int.bmod_def]
  split <;> omega

theorem unsigned32_small {n : Nat} (h : n ≤ 65536) : unsigned32 n = n := by
  rw [unsigned32]
  omega

theorem unsigned32_succ {n : Nat} (h : n < 65536) : unsigned32 ((n : Int) + 1) = n + 1 := by
  rw [unsigned32]
  omega

/-- The number of a frame does not depend on what is above its sixteen bits. -/
theorem ofNat_mod_sub {k r : Nat} (h : r ≤ k % 65536) :
    UInt16.ofNat (k % 65536 - r) = UInt16.ofNat (k - r) := by
  apply UInt16.toNat_inj.mp
  rw [UInt16.toNat_ofNat', UInt16.toNat_ofNat']
  omega

theorem toNat_seqNumber (k : Nat) : (st.packet k).seqNumber.toNat = k % 65536 :=
  UInt16.toNat_ofNat'

/-- A payload by its place in the packet. -/
theorem payload_of_packet {k r : Nat} (hr : r ≤ st.secondaries k) :
    (if (r : Int) = 0 then (st.packet k).primaryIfpPacket
      else (st.packet k).secondaryIfpPackets.getD ((r : Int) - 1).toNat []) =
      st.payload (k - r) := by
  cases r with
  | zero => rfl
  | succ r =>
      rw [if_neg (by omega), show (((r + 1 : Nat) : Int) - 1).toNat = r by omega,
        List.getD_eq_getElem?_getD, packet, List.getElem?_map, List.getElem?_range (by omega)]
      rfl

/-- What is given of a packet. -/
theorem giveFrame_eq {k r : Nat} (hpacket : s.receivedPacket = st.packet k)
    (hsecondary : s.secondaryPacket = r) (hr : r ≤ st.secondaries k) (hmod : r ≤ k % 65536) :
    s.giveFrame.2 = .processPacket (st.frame (k - r)) ∧
      st.Holds s.giveFrame.1 k r (k % 65536 + 1) ∧
      s.giveFrame.1.awaitingGoodPacket = s.awaitingGoodPacket := by
  have hsub : unsigned32 ((k % 65536 : Nat) - (r : Int)) = k % 65536 - r := by
    rw [← Int.ofNat_sub hmod]
    exact unsigned32_small (by omega)
  have hgiven : s.giveFrame = ({ (s.setFrameFromIfp (st.payload (k - r)) (k % 65536 - r)).1 with
      secondaryPacket := (r : Int) - 1 }, .processPacket (st.frame (k - r))) := by
    rw [Receiver.giveFrame]
    simp only [hpacket, hsecondary, toNat_seqNumber, hsub, payload_of_packet st hr,
      Receiver.setFrameFromIfp, ofNat_mod_sub hmod, frame]
  rw [hgiven, Receiver.setFrameFromIfp, hsecondary]
  refine ⟨rfl, ⟨rfl, ?_, ?_⟩, ?_⟩
  · intro hpos
    simp only
    rw [if_neg (by omega)]
    exact ⟨hpacket, hr, hmod, trivial⟩
  · intro hzero
    simp only
    rw [if_pos (by omega), hzero]
    exact unsigned32_succ (Nat.mod_lt _ (by decide))
  · simp only
    split <;> rfl

/-- What a packet gives when it is received. -/
theorem readDatagram_eq {k expected : Nat} (hidle : s.secondaryPacket = -1)
    (hexpected : s.expectedSequenceNumber = expected) (hsmall : expected ≤ 65536)
    (hdecode : decode (st.datagram k) = some (st.packet k))
    (hlength : (st.datagram k).length ≤ 500)
    (hawaiting : s.awaitingGoodPacket = true → k % 65536 < 32768) :
    (s.readDatagram decode (st.datagram k)).2 =
        .processPacket (st.frame (k - st.recovered expected k)) ∧
      st.Holds (s.readDatagram decode (st.datagram k)).1 k (st.recovered expected k)
        (k % 65536 + 1) ∧
      (s.readDatagram decode (st.datagram k)).1.awaitingGoodPacket = false := by
  have hpackets : (st.packet k).secondaryIfpPackets.length = st.secondaries k := by
    rw [packet, List.length_map, List.length_range]
  have hgood : ¬ (s.awaitingGoodPacket = true ∧ 32768 ≤ (st.packet k).seqNumber.toNat) := by
    rintro ⟨hwait, hlarge⟩
    have hlow := hawaiting hwait
    rw [toNat_seqNumber] at hlarge
    omega
  rw [Receiver.readDatagram, List.take_of_length_le hlength, hdecode, Option.elim_some,
    if_neg hgood, Receiver.goodPacket]
  simp only [toNat_seqNumber, hexpected, hpackets]
  rw [int32_small (by omega) (by omega)]
  by_cases hmissing : 0 < ((k % 65536 : Nat) : Int) - expected ∧ 0 < st.secondaries k
  · rw [if_pos hmissing]
    have hrecovered : min (((k % 65536 : Nat) : Int) - expected) (st.secondaries k) =
        st.recovered expected k := by
      rw [recovered]
      omega
    rw [hrecovered]
    exact st.giveFrame_eq rfl rfl (Nat.min_le_right _ _) (by rw [recovered]; omega)
  · rw [if_neg hmissing]
    have hnone : st.recovered expected k = 0 := by
      rw [recovered]
      omega
    rw [hnone, Nat.sub_zero]
    refine ⟨?_, ⟨?_, fun hpos => absurd hpos (Nat.lt_irrefl 0), fun _ => rfl⟩, ?_⟩
    · simp only [Receiver.setFrameFromIfp, frame, packet]
      rw [show UInt16.ofNat (k % 65536) = UInt16.ofNat k from ofNat_mod_sub (Nat.zero_le _)]
    · simp only [Receiver.setFrameFromIfp, hidle]
      split <;> rfl
    · simp only [Receiver.setFrameFromIfp]
      split <;> rfl

theorem readDataPdu_pending (h : 0 ≤ s.secondaryPacket) (socket : List Octets) :
    s.readDataPdu decode socket = ((s.giveFrame.1, socket), s.giveFrame.2) := if_pos h

theorem readDataPdu_idle (h : ¬ 0 ≤ s.secondaryPacket) :
    s.readDataPdu decode [] = ((s, []), .ignorePacket) := if_neg h

theorem readDataPdu_datagram (h : ¬ 0 ≤ s.secondaryPacket) (data : Octets)
    (socket : List Octets) :
    s.readDataPdu decode (data :: socket) =
      (((s.readDatagram decode data).1, socket), (s.readDatagram decode data).2) := if_neg h

/-- The oldest frame of a packet comes first. -/
theorem range_recovered {k m : Nat} (h : m ≤ k) :
    List.range' (k - m) (m + 1) = (k - m) :: List.range' (k + 1 - m) m := by
  rw [List.range'_succ, show k - m + 1 = k + 1 - m by omega]

/-- What the calls return: one frame each, in the order of the packets. -/
theorem reads_order (n : Nat) {k m expected : Nat} {received : List Nat}
    (h : st.Holds s k m expected) (hsmall : expected ≤ 65536)
    (hawaiting : s.awaitingGoodPacket = true → ∀ first ∈ received.head?, first % 65536 < 32768)
    (hdecode : ∀ j ∈ received, decode (st.datagram j) = some (st.packet j))
    (hlength : ∀ j ∈ received, (st.datagram j).length ≤ 500) :
    reads decode n s (received.map st.datagram) =
      ((List.range' (k + 1 - m) m ++ st.order expected received).map st.frame).take n := by
  induction n generalizing s k m expected received with
  | zero => rfl
  | succ n ih =>
      have hsecondary := h.secondary
      rw [reads]
      cases m with
      | succ m =>
          rcases h.received (Nat.succ_pos m) with ⟨hpacket, hm, hmod, hnext⟩
          rcases st.giveFrame_eq (r := m) hpacket (by omega) (by omega) (by omega) with
            ⟨hgiven, hholds, hwait⟩
          have hle := Nat.mod_le k 65536
          have hrest := ih hholds (by omega) (by rwa [hwait]) hdecode hlength
          rw [readDataPdu_pending (by omega), hgiven, hrest, hnext, Nat.add_sub_add_right,
            range_recovered (by omega)]
          rfl
      | zero =>
          cases received with
          | nil =>
              have hrest := ih h hsmall hawaiting hdecode hlength
              rw [List.map_nil] at hrest
              rw [List.map_nil, readDataPdu_idle (by omega), hrest, order, List.range'_zero,
                List.append_nil, List.map_nil, List.take_nil, List.take_nil]
              rfl
          | cons j received =>
              rcases st.readDatagram_eq (by omega) (h.number rfl) hsmall
                (hdecode j (List.mem_cons_self ..)) (hlength j (List.mem_cons_self ..))
                (fun hwait => hawaiting hwait j rfl) with ⟨hgiven, hholds, hwait⟩
              have hrest := ih hholds (by omega)
                (by rw [hwait]; exact fun hfalse => absurd hfalse Bool.false_ne_true)
                (fun i hi => hdecode i (List.mem_cons_of_mem _ hi))
                (fun i hi => hlength i (List.mem_cons_of_mem _ hi))
              have hle : st.recovered expected j ≤ j :=
                (Nat.min_le_right _ _).trans (st.precedes j)
              rw [List.map_cons, readDataPdu_datagram (by omega), hgiven, hrest, order,
                range_recovered hle]
              rfl

end Reading

section Order

/-- The packets that were received, the last one first. -/
def step (received : List Nat) (k : Nat) : List Nat × Unit := (k :: received, ())

/-- What has to be true of the next packet received, with the packets before it:
it fits into the buffer, and it is later than the one before it. The frames that it
carries from between the two are no more than the distance of the two numbers. The
frames that it carries from before them were received already. -/
def Sound (received : List Nat) (k : Nat) : Prop :=
  (st.datagram k).length ≤ 500 ∧
    match received with
    | [] => k % 65536 < 32768
    | last :: older => last < k ∧
        min (k - last - 1) (st.secondaries k) ≤ k % 65536 - (last % 65536 + 1) ∧
        ∀ d, (last :: older).getLast (List.cons_ne_nil _ _) ≤ d → d ≤ last → st.Covers k d →
          ∃ j ∈ last :: older, st.Covers j d

/-- The frames that the rest of the packets give. -/
theorem order_sound (received : List Nat) {last : Nat} {older : List Nat}
    (hsound : Lib.Along step st.Sound (last :: older) received) :
    (st.order (last % 65536 + 1) received).Pairwise (· < ·) ∧
      (∀ d ∈ st.order (last % 65536 + 1) received, last < d) ∧
      ∀ k ∈ received, ∀ d, (last :: older).getLast (List.cons_ne_nil _ _) ≤ d → st.Covers k d →
        d ∈ st.order (last % 65536 + 1) received ∨ ∃ j ∈ last :: older, st.Covers j d := by
  induction received generalizing last older with
  | nil =>
      exact ⟨.nil, fun _ hd => absurd hd List.not_mem_nil, fun _ hk => absurd hk List.not_mem_nil⟩
  | cons k received ih =>
      rcases Lib.along_cons.mp hsound with ⟨⟨_, hlater, hdistance, hold⟩, hrest⟩
      rcases ih hrest with ⟨hsorted, habove, hcovered⟩
      have hrecovered : st.recovered (last % 65536 + 1) k ≤ k - last - 1 := by
        rw [recovered]
        omega
      have hmem : ∀ d, d ∈ List.range' (k - st.recovered (last % 65536 + 1) k)
          (st.recovered (last % 65536 + 1) k + 1) ↔
            k - st.recovered (last % 65536 + 1) k ≤ d ∧ d ≤ k := by
        intro d
        rw [List.mem_range'_1]
        omega
      refine ⟨?_, ?_, ?_⟩
      · rw [order, List.pairwise_append]
        refine ⟨List.pairwise_lt_range', hsorted, ?_⟩
        intro d hd e he
        exact Nat.lt_of_le_of_lt ((hmem d).mp hd).2 (habove e he)
      · intro d hd
        rw [order, List.mem_append, hmem] at hd
        rcases hd with hd | hd
        · omega
        · exact hlater.trans (habove d hd)
      · -- A frame of this packet is given by it, or was received already.
        have hthis : ∀ d, (last :: older).getLast (List.cons_ne_nil _ _) ≤ d → st.Covers k d →
            d ∈ st.order (last % 65536 + 1) (k :: received) ∨
              ∃ j ∈ last :: older, st.Covers j d := by
          intro d hfirst hcovers
          by_cases hd : d ≤ last
          · exact .inr (hold d hfirst hd hcovers)
          · refine .inl ?_
            rw [order, List.mem_append, hmem]
            have hle := hcovers.1
            have hback := hcovers.2
            refine .inl ⟨?_, hle⟩
            rw [recovered]
            omega
        intro i hi d hfirst hcovers
        rcases List.mem_cons.mp hi with rfl | hi
        · exact hthis d hfirst hcovers
        · rcases hcovered i hi d (by rwa [List.getLast_cons (List.cons_ne_nil _ _)]) hcovers with
            hlate | ⟨j, hj, hcovers⟩
          · refine .inl ?_
            rw [order, List.mem_append]
            exact .inr hlate
          · rcases List.mem_cons.mp hj with rfl | hj
            · exact hthis d hfirst hcovers
            · exact .inr ⟨j, hj, hcovers⟩

/-- The frames come in the order of their numbers, and every one that was received
from the first packet on comes. -/
theorem frames_recovered (decode : Octets → Option UdptlPacket) (received : List Nat)
    (hdecode : ∀ k ∈ received, decode (st.datagram k) = some (st.packet k))
    (hsound : Lib.Along step st.Sound [] received) :
    ∃ given : List Nat, given.Pairwise (· < ·) ∧
      (∀ first ∈ received.head?, ∀ k ∈ received, ∀ d, first ≤ d → st.Covers k d → d ∈ given) ∧
      ∀ n, reads decode n .onStart (received.map st.datagram) = (given.map st.frame).take n := by
  have hlength : ∀ (received older : List Nat), Lib.Along step st.Sound older received →
      ∀ k ∈ received, (st.datagram k).length ≤ 500 := by
    intro received
    induction received with
    | nil => exact fun _ _ _ hk => absurd hk List.not_mem_nil
    | cons j received ih =>
        intro older hsound k hk
        rcases Lib.along_cons.mp hsound with ⟨hj, hrest⟩
        rcases List.mem_cons.mp hk with rfl | hk
        · exact hj.1
        · exact ih _ hrest k hk
  have hholds : st.Holds .onStart 0 0 0 :=
    ⟨rfl, fun hpos => absurd hpos (Nat.lt_irrefl 0), fun _ => rfl⟩
  refine ⟨st.order 0 received, ?_, ?_, ?_⟩
  · cases received with
    | nil => exact .nil
    | cons first received =>
        rcases st.order_sound received (Lib.along_cons.mp hsound).2 with ⟨hsorted, habove, _⟩
        rw [order, List.pairwise_append]
        refine ⟨List.pairwise_lt_range', hsorted, ?_⟩
        intro d hd e he
        have hlast := habove e he
        rw [List.mem_range'_1] at hd
        have hle : st.recovered 0 first ≤ first := (Nat.min_le_right _ _).trans (st.precedes first)
        omega
  · intro first hfirst k hk d hd hcovers
    cases received with
    | nil => exact absurd hk List.not_mem_nil
    | cons j received =>
        rw [List.head?_cons, Option.mem_def, Option.some.injEq] at hfirst
        subst hfirst
        rcases st.order_sound received (Lib.along_cons.mp hsound).2 with ⟨_, _, hcovered⟩
        have hle : st.recovered 0 j ≤ j := (Nat.min_le_right _ _).trans (st.precedes j)
        -- Of the first packet only its own frame is counted.
        have hone : ∀ d, j ≤ d → st.Covers j d → d ∈ st.order 0 (j :: received) := by
          intro d hd hcovers
          have hself := hcovers.1
          rw [order, List.mem_append, List.mem_range'_1]
          omega
        rcases List.mem_cons.mp hk with rfl | hk
        · exact hone d hd hcovers
        · rcases hcovered k hk d hd hcovers with hin | ⟨i, hi, hcovers⟩
          · rw [order, List.mem_append]
            exact .inr hin
          · rw [List.mem_singleton] at hi
            exact hone d hd (hi ▸ hcovers)
  · intro n
    have hawaiting : ∀ first ∈ received.head?, first % 65536 < 32768 := by
      intro first hfirst
      cases received with
      | nil => exact absurd hfirst (Option.not_mem_none _)
      | cons j received =>
          rw [List.head?_cons, Option.mem_def, Option.some.injEq] at hfirst
          rw [← hfirst]
          exact (Lib.along_cons.mp hsound).1.2
    have hreads := st.reads_order n hholds (Nat.zero_le _) (fun _ => hawaiting) hdecode
      (hlength received [] hsound)
    rwa [List.range'_zero, List.nil_append] at hreads

end Order

section Examples

/-- Frames of different sizes, each repeated once. -/
def growing : Stream where
  payload k := List.replicate (k + 1) 0
  secondaries k := min k 1
  datagram k := [UInt8.ofNat (k / 256), UInt8.ofNat k, UInt8.ofNat (k + 1)] ++
    List.replicate (k + 1) 0 ++ [0, UInt8.ofNat (min k 1)] ++
    if k = 0 then [] else UInt8.ofNat k :: List.replicate k 0
  precedes k := Nat.min_le_left k 1

/-- Its packets 0 and 2. -/
def decodeGrowing (data : Octets) : Option UdptlPacket :=
  if data = [0, 0, 1, 0, 0, 0] then some ⟨0, [0], []⟩
  else if data = [0, 2, 3, 0, 0, 0, 0, 1, 2, 0, 0] then some ⟨2, [0, 0, 0], [[0, 0]]⟩
  else none

/-- A frame that was lost is recovered. -/
theorem frames_recovered_lost :
    ∃ given : List Nat, given.Pairwise (· < ·) ∧
      (∀ first ∈ [0, 2].head?, ∀ k ∈ [0, 2], ∀ d, first ≤ d → growing.Covers k d → d ∈ given) ∧
      ∀ n, reads decodeGrowing n .onStart ([0, 2].map growing.datagram) =
        (given.map growing.frame).take n :=
  growing.frames_recovered decodeGrowing [0, 2] (by decide)
    (Lib.along_cons.mpr ⟨⟨by decide, by decide⟩,
      Lib.along_cons.mpr ⟨⟨by decide, by decide, by decide,
        fun d _ hd _ => ⟨0, List.mem_singleton.mpr rfl, hd, Nat.zero_le _⟩⟩,
        fun _ hx => absurd hx List.not_mem_nil⟩⟩)

/-- A packet that comes twice gives its frame twice. -/
theorem frame_given_twice :
    ¬ ∃ given : List Nat, given.Pairwise (· < ·) ∧
      (∀ first ∈ [0, 0].head?, ∀ k ∈ [0, 0], ∀ d, first ≤ d → growing.Covers k d → d ∈ given) ∧
      ∀ n, reads decodeGrowing n .onStart ([0, 0].map growing.datagram) =
        (given.map growing.frame).take n := by
  rintro ⟨given, hsorted, _, hreads⟩
  have htwo : [growing.frame 0, growing.frame 0] = (given.map growing.frame).take 2 :=
    (by decide : [growing.frame 0, growing.frame 0] =
      reads decodeGrowing 2 .onStart ([0, 0].map growing.datagram)).trans (hreads 2)
  have hzero : ∀ d, growing.frame 0 = growing.frame d → d = 0 := by
    intro d hd
    have hlen := congrArg (fun f : Frame => f.payload.length) hd
    simp only [frame, growing, List.length_replicate] at hlen
    omega
  cases given with
  | nil => cases htwo
  | cons a given =>
      cases given with
      | nil => exact absurd (List.cons.inj htwo).2 (List.cons_ne_nil _ _)
      | cons b given =>
          rw [List.map_cons, List.map_cons, List.take_succ_cons, List.take_succ_cons,
            List.cons.injEq, List.cons.injEq] at htwo
          have hless := (List.pairwise_cons.mp hsorted).1 b (List.mem_cons_self ..)
          rw [hzero a htwo.1, hzero b htwo.2.1] at hless
          exact absurd hless (Nat.lt_irrefl 0)

end Examples

end Stream

end T38

end CryptoOpal

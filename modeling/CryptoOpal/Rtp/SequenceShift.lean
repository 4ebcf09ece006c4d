import CryptoOpal.Lib.Transducer
import CryptoOpal.Rtp.Receiver

/-!
# Sequence Numbers Are Only Relative

What a receiver does when a constant is added to all of its sequence numbers,
modulo `2 ^ 16`.

It does the same as long as the numbers it compares keep their order
(`OrderKept`). It compares them as they are, a packet's number with the
expected one and with those of the saved packets, so their order changes when
the constant takes some of them past 65535 and not the others. Differences of
numbers, and the number after a number, do not depend on the constant.

## Main definitions

* `Packet.shift`, `Call.shift`: Packets with a constant added.
* `Session.shifted`: A session that has received shifted packets.
* `KeepsOrder`, `OrderKept`: The condition.

## Theorems

* `shifts_step`: A call on shifted packets does the same.
* `receiver_relative`: So does a run.
-/

namespace CryptoOpal

namespace Rtp

/-- A packet with `c` added to its sequence number. -/
def Packet.shift (c : UInt16) (p : Packet) : Packet :=
  { p with sequenceNumber := p.sequenceNumber + c }

@[simp] theorem Packet.sequenceNumber_shift (c : UInt16) (p : Packet) :
    (p.shift c).sequenceNumber = p.sequenceNumber + c := rfl

/-- The same for the packet of a call. -/
def Call.shift (c : UInt16) : Call → Call
  | .readBufferedData => .readBufferedData
  | .packet p tick => .packet (p.shift c) tick

/-- The session with shifted packets saved, and another expected number. -/
def Session.shifted (c expected : UInt16) (s : Session) : Session :=
  { s with
    expectedSequenceNumber := expected
    outOfOrderPackets := s.outOfOrderPackets.map (Packet.shift c) }

/-- Two numbers keep their order when `c` is added. -/
def KeepsOrder (c m n : UInt16) : Prop := m < n ↔ m + c < n + c

instance (c m n : UInt16) : Decidable (KeepsOrder c m n) :=
  inferInstanceAs (Decidable (_ ↔ _))

/-- The comparisons that a call makes come out the same with `c` added. The
    first packet's number is only looked at after a switch to T.38. Of later
    packets, the expected one is not compared, and one that is late only with
    the expected number. -/
def OrderKept (c : UInt16) (s : Session) : Call → Prop
  | .readBufferedData => True
  | .packet p _ =>
    if s.packetsReceived = 0 then
      p.payloadType = payloadTypeT38 → p.payload.length = 0 →
        (p.sequenceNumber ≥ 0x8000 ↔ p.sequenceNumber + c ≥ 0x8000)
    else
      p.sequenceNumber = s.expectedSequenceNumber ∨ s.allowSequenceChange = true ∨
        KeepsOrder c p.sequenceNumber s.expectedSequenceNumber ∧
          (p.sequenceNumber < s.expectedSequenceNumber ∨
            ∀ q ∈ s.outOfOrderPackets, KeepsOrder c q.sequenceNumber p.sequenceNumber ∧
              KeepsOrder c q.sequenceNumber s.expectedSequenceNumber)

instance (c : UInt16) (s : Session) (call : Call) : Decidable (OrderKept c s call) :=
  match call with
  | .readBufferedData => inferInstanceAs (Decidable True)
  | .packet _ _ => inferInstanceAs (Decidable (ite _ _ _))

/-- A session that has done the same with shifted packets: its expected number
    is shifted as well, unless it has not received anything. -/
def Shifted (c : UInt16) (s t : Session) : Prop :=
  ∃ expected, t = s.shifted c expected ∧
    (expected = s.expectedSequenceNumber + c ∨
      s.packetsReceived = 0 ∧ s.outOfOrderPackets = [])

/-- Two calls do the same: they deliver the same packet if any, save the same
    packets, and leave the same counts of lost packets and of packets out of
    order. -/
structure SameOutcome (c : UInt16) (x y : Lib.Step Session Call (Option Packet)) : Prop where
  delivered : y.output = x.output.map (Packet.shift c)
  saved : y.after.outOfOrderPackets = x.after.outOfOrderPackets.map (Packet.shift c)
  lost : y.after.packetsLost = x.after.packetsLost
  outOfOrder : y.after.packetsOutOfOrder = x.after.packetsOutOfOrder

section Numbers

variable {c m n : UInt16}

theorem shift_inj : m + c = n + c ↔ m = n := UInt16.add_left_inj c

theorem shift_succ (n c : UInt16) : n + c + 1 = n + 1 + c := by
  rw [UInt16.add_assoc, UInt16.add_comm c 1, ← UInt16.add_assoc]

theorem shift_sub (m n c : UInt16) : m + c - (n + c) = m - n := by
  apply UInt16.toBitVec_inj.mp
  simp only [UInt16.toBitVec_sub, UInt16.toBitVec_add]
  bv_omega

end Numbers

section Lists

variable {c expected : UInt16} {p : Packet}

/-- A shifted packet goes to the same place among the saved packets. -/
theorem saveOutOfOrderPacket_shift {l : List Packet}
    (h : ∀ q ∈ l, KeepsOrder c q.sequenceNumber p.sequenceNumber) :
    saveOutOfOrderPacket (p.shift c) (l.map (Packet.shift c)) =
      (saveOutOfOrderPacket p l).map (Packet.shift c) := by
  induction l with
  | nil => rfl
  | cons q l ih =>
      have hq := h q List.mem_cons_self
      rw [List.map_cons, saveOutOfOrderPacket, saveOutOfOrderPacket]
      simp only [Packet.sequenceNumber_shift, gt_iff_lt]
      by_cases hlt : q.sequenceNumber < p.sequenceNumber
      · rw [if_pos hlt, if_pos (hq.mp hlt)]
        rfl
      · rw [if_neg hlt, if_neg (fun hc => hlt (hq.mpr hc)),
          ih fun r hr => h r (List.mem_cons_of_mem q hr)]
        rfl

/-- The same packets are late. -/
theorem skipLate_shift {l : List Packet}
    (h : ∀ q ∈ l, KeepsOrder c q.sequenceNumber expected) :
    skipLate (expected + c) (l.map (Packet.shift c)) =
      (skipLate expected l).map (Packet.shift c) := by
  rw [skipLate, skipLate, ← List.map_reverse]
  have hrev : ∀ q ∈ l.reverse, KeepsOrder c q.sequenceNumber expected :=
    fun q hq => h q (List.mem_reverse.mp hq)
  generalize l.reverse = back at hrev
  induction back with
  | nil => rfl
  | cons q back ih =>
      have hq := hrev q List.mem_cons_self
      rw [List.map_cons]
      by_cases hlt : q.sequenceNumber < expected
      · have hlt' : (q.shift c).sequenceNumber < expected + c := hq.mp hlt
        rw [List.dropWhile_cons_of_pos (p := fun r : Packet => decide (r.sequenceNumber < expected))
            (decide_eq_true hlt),
          List.dropWhile_cons_of_pos
            (p := fun r : Packet => decide (r.sequenceNumber < expected + c)) (decide_eq_true hlt'),
          ih fun r hr => hrev r (List.mem_cons_of_mem q hr)]
      · have hlt' : ¬ (q.shift c).sequenceNumber < expected + c := fun hc => hlt (hq.mpr hc)
        rw [List.dropWhile_cons_of_neg (p := fun r : Packet => decide (r.sequenceNumber < expected))
            (mt of_decide_eq_true hlt),
          List.dropWhile_cons_of_neg
            (p := fun r : Packet => decide (r.sequenceNumber < expected + c))
            (mt of_decide_eq_true hlt'), List.map_cons]

end Lists

/-- Two results of a call are the same but for the shift. -/
def Agree (c : UInt16) (r r' : Session × Option Packet) : Prop :=
  Shifted c r.1 r'.1 ∧ r'.2 = r.2.map (Packet.shift c)

section Steps

variable {c expected : UInt16} {s t : Session} {p : Packet} {tick : Int}

theorem agree_none (h : Shifted c s t) : Agree c (s, none) (t, none) := ⟨h, rfl⟩

/-- A session whose expected number is shifted. -/
theorem shifted_self (c : UInt16) (s : Session) :
    Shifted c s (s.shifted c (s.expectedSequenceNumber + c)) :=
  ⟨_, rfl, Or.inl rfl⟩

/-- Both deliver a packet, and expect the one after it. -/
theorem agree_deliver (h : t = s.shifted c (s.expectedSequenceNumber + c)) (p : Packet) :
    Agree c (s.deliver p) (t.deliver (p.shift c)) := by
  rw [h]
  exact ⟨shifted_self c (s.deliver p).1, rfl⟩

theorem agree_receiveFirst (h : Shifted c s t)
    (hkept : p.payloadType = payloadTypeT38 → p.payload.length = 0 →
      (p.sequenceNumber ≥ 0x8000 ↔ p.sequenceNumber + c ≥ 0x8000)) :
    Agree c (s.receiveFirst p) (t.receiveFirst (p.shift c)) := by
  rcases h with ⟨expected, rfl, hexpected⟩
  unfold Session.receiveFirst
  have hiff : (p.payloadType = payloadTypeT38 ∧ p.sequenceNumber ≥ 0x8000 ∧ p.payload.length = 0) ↔
      ((p.shift c).payloadType = payloadTypeT38 ∧ (p.shift c).sequenceNumber ≥ 0x8000 ∧
        (p.shift c).payload.length = 0) :=
    ⟨fun h => ⟨h.1, (hkept h.1 h.2.2).mp h.2.1, h.2.2⟩,
      fun h => ⟨h.1, (hkept h.1 h.2.2).mpr h.2.1, h.2.2⟩⟩
  by_cases hT38 : p.payloadType = payloadTypeT38 ∧ p.sequenceNumber ≥ 0x8000 ∧ p.payload.length = 0
  · rw [if_pos hT38, if_pos (hiff.mp hT38)]
    exact agree_none ⟨expected, rfl, hexpected⟩
  · rw [if_neg hT38, if_neg (fun h => hT38 (hiff.mpr h))]
    refine agree_deliver ?_ p
    simp only [Session.shifted, Packet.shift, shift_succ]

theorem agree_receiveExpected (c : UInt16) (s : Session) (p : Packet) (tick : Int) :
    Agree c (s.receiveExpected p tick)
      ((s.shifted c (s.expectedSequenceNumber + c)).receiveExpected (p.shift c) tick) := by
  simp only [Session.receiveExpected, Session.shifted, ne_eq, List.map_eq_nil_iff, shift_succ]
  split
  · exact agree_deliver rfl p
  · exact agree_deliver rfl p

theorem agree_receiveChanged (c : UInt16) (s : Session) (p : Packet) :
    Agree c (s.receiveChanged p)
      ((s.shifted c (s.expectedSequenceNumber + c)).receiveChanged (p.shift c)) := by
  refine agree_deliver ?_ p
  simp only [Session.shifted, Packet.shift, shift_succ, List.map_nil]

theorem agree_receiveLate (c : UInt16) (s : Session) (p : Packet) :
    Agree c (s.receiveLate p)
      ((s.shifted c (s.expectedSequenceNumber + c)).receiveLate (p.shift c)) := by
  simp only [Session.receiveLate, Session.shifted, Packet.sequenceNumber_shift, shift_succ]
  by_cases hrestart : s.consecutiveOutOfOrderPackets + 1 > 10
  · rw [if_pos hrestart, if_pos hrestart]
    exact agree_deliver rfl p
  rw [if_neg hrestart, if_neg hrestart]
  by_cases hresequence : s.resequenceOutOfOrderPackets = true
  · simp only [hresequence, if_true]
    exact agree_none ⟨_, rfl, Or.inl rfl⟩
  · simp only [hresequence]
    exact agree_deliver rfl p

theorem agree_receiveEarly (s : Session)
    (h : ∀ q ∈ s.outOfOrderPackets, KeepsOrder c q.sequenceNumber p.sequenceNumber) :
    Agree c (s.receiveEarly p tick)
      ((s.shifted c (s.expectedSequenceNumber + c)).receiveEarly (p.shift c) tick) := by
  have hsave := saveOutOfOrderPacket_shift h
  simp only [Session.receiveEarly, Session.shifted, List.map_eq_nil_iff]
  split
  · exact agree_none ⟨s.expectedSequenceNumber + c, by simp only [Session.shifted, hsave], Or.inl rfl⟩
  · exact agree_none ⟨s.expectedSequenceNumber + c, by simp only [Session.shifted, hsave], Or.inl rfl⟩

theorem agree_receiveAfterLoss (c : UInt16) (s : Session) (p : Packet) :
    Agree c (s.receiveAfterLoss p)
      ((s.shifted c (s.expectedSequenceNumber + c)).receiveAfterLoss (p.shift c)) := by
  refine agree_deliver ?_ p
  simp only [Session.shifted, Packet.shift, shift_sub, shift_succ]

theorem agree_receiveGivenUp (s : Session)
    (hsaved : ∀ q ∈ s.outOfOrderPackets, KeepsOrder c q.sequenceNumber p.sequenceNumber ∧
      KeepsOrder c q.sequenceNumber s.expectedSequenceNumber)
    (hp : KeepsOrder c p.sequenceNumber s.expectedSequenceNumber) :
    Agree c (s.receiveGivenUp p tick)
      ((s.shifted c (s.expectedSequenceNumber + c)).receiveGivenUp (p.shift c) tick) := by
  have hall : ∀ q ∈ saveOutOfOrderPacket p s.outOfOrderPackets,
      KeepsOrder c q.sequenceNumber s.expectedSequenceNumber := by
    intro q hq
    rcases mem_saveOutOfOrderPacket hq with rfl | hq
    · exact hp
    · exact (hsaved q hq).2
  have hskip := skipLate_shift hall
  rw [← saveOutOfOrderPacket_shift fun q hq => (hsaved q hq).1] at hskip
  unfold Session.receiveGivenUp
  by_cases hwaiting : s.outOfOrderPackets = []
  · rw [if_neg (not_not.mpr hwaiting), if_neg (by
      simpa only [Session.shifted, ne_eq, List.map_eq_nil_iff, not_not] using hwaiting)]
    exact agree_receiveAfterLoss c s p
  rw [if_pos hwaiting, if_pos (by
    simpa only [Session.shifted, ne_eq, List.map_eq_nil_iff] using hwaiting)]
  simp only [Session.shifted, hskip]
  cases skipLate s.expectedSequenceNumber (saveOutOfOrderPacket p s.outOfOrderPackets) with
  | nil => exact agree_none ⟨_, rfl, Or.inl rfl⟩
  | cons q rest =>
      simp only [List.map_cons, ← List.map_reverse]
      exact agree_receiveAfterLoss c
        { s with outOfOrderPackets := rest.reverse, outOfOrderPacketTime := tick } q

theorem agree_receiveNext (s : Session)
    (hkept : p.sequenceNumber = s.expectedSequenceNumber ∨ s.allowSequenceChange = true ∨
      KeepsOrder c p.sequenceNumber s.expectedSequenceNumber ∧
        (p.sequenceNumber < s.expectedSequenceNumber ∨
          ∀ q ∈ s.outOfOrderPackets, KeepsOrder c q.sequenceNumber p.sequenceNumber ∧
            KeepsOrder c q.sequenceNumber s.expectedSequenceNumber)) :
    Agree c (s.receiveNext p tick)
      ((s.shifted c (s.expectedSequenceNumber + c)).receiveNext (p.shift c) tick) := by
  have hsaves : (s.shifted c (s.expectedSequenceNumber + c)).Saves tick ↔ s.Saves tick := by
    simp only [Session.Saves, Session.shifted, List.map_eq_nil_iff]
  have hsame : (p.shift c).sequenceNumber =
      (s.shifted c (s.expectedSequenceNumber + c)).expectedSequenceNumber ↔
      p.sequenceNumber = s.expectedSequenceNumber := shift_inj
  unfold Session.receiveNext
  by_cases heq : p.sequenceNumber = s.expectedSequenceNumber
  · rw [if_pos heq, if_pos (hsame.mpr heq)]
    exact agree_receiveExpected c s p tick
  rw [if_neg heq, if_neg (mt hsame.mp heq)]
  by_cases hchange : s.allowSequenceChange = true
  · rw [if_pos hchange, if_pos (show (s.shifted c _).allowSequenceChange = true from hchange)]
    exact agree_receiveChanged c s p
  rw [if_neg hchange, if_neg (show ¬ (s.shifted c _).allowSequenceChange = true from hchange)]
  rcases (hkept.resolve_left heq).resolve_left hchange with ⟨horder, hrest⟩
  by_cases hlate : p.sequenceNumber < s.expectedSequenceNumber
  · rw [if_pos hlate, if_pos (show (p.shift c).sequenceNumber <
      (s.shifted c (s.expectedSequenceNumber + c)).expectedSequenceNumber from horder.mp hlate)]
    exact agree_receiveLate c s p
  have hsaved := hrest.resolve_left hlate
  rw [if_neg hlate, if_neg (show ¬ (p.shift c).sequenceNumber <
    (s.shifted c (s.expectedSequenceNumber + c)).expectedSequenceNumber from
      fun hc => hlate (horder.mpr hc))]
  by_cases htick : s.Saves tick
  · rw [if_pos htick, if_pos (hsaves.mpr htick)]
    exact agree_receiveEarly s fun q hq => (hsaved q hq).1
  · rw [if_neg htick, if_neg (mt hsaves.mp htick)]
    exact agree_receiveGivenUp s hsaved horder

/-- Nothing before the sequence number depends on the shift. -/
theorem learn_shifted (c expected : UInt16) (s : Session) (p : Packet) :
    ((s.shifted c expected).learnPayloadType (p.shift c)) =
        (s.learnPayloadType p).shifted c expected ∧
      ((s.shifted c expected).learnSyncSource (p.shift c)) =
        (s.learnSyncSource p).shifted c expected := by
  constructor
  · unfold Session.learnPayloadType
    by_cases h : s.lastReceivedPayloadType = illegalPayloadType
    · rw [if_pos h, if_pos (show (s.shifted c expected).lastReceivedPayloadType = _ from h)]
      rfl
    · rw [if_neg h, if_neg (show ¬ (s.shifted c expected).lastReceivedPayloadType = _ from h)]
  · unfold Session.learnSyncSource
    by_cases h : s.syncSourceIn = 0
    · rw [if_pos h, if_pos (show (s.shifted c expected).syncSourceIn = 0 from h)]
      rfl
    · rw [if_neg h, if_neg (show ¬ (s.shifted c expected).syncSourceIn = 0 from h)]

/-- Whether a source is accepted does not depend on the shift. -/
theorem checkSyncSource_shifted (c expected : UInt16) (s : Session) (p : Packet) :
    (s.shifted c expected).checkSyncSource (p.shift c) =
      ((s.checkSyncSource p).1.shifted c expected, (s.checkSyncSource p).2) := by
  unfold Session.checkSyncSource
  by_cases hsource : p.syncSource ≠ s.syncSourceIn
  · rw [if_pos hsource, if_pos (show (p.shift c).syncSource ≠
      (s.shifted c expected).syncSourceIn from hsource)]
    by_cases hany : s.allowAnySyncSource = true
    · rw [if_pos hany, if_pos (show (s.shifted c expected).allowAnySyncSource = true from hany)]
      rfl
    rw [if_neg hany, if_neg (show ¬ (s.shifted c expected).allowAnySyncSource = true from hany)]
    by_cases hone : s.allowOneSyncSourceChange = true
    · rw [if_pos hone,
        if_pos (show (s.shifted c expected).allowOneSyncSourceChange = true from hone)]
      rfl
    · rw [if_neg hone,
        if_neg (show ¬ (s.shifted c expected).allowOneSyncSourceChange = true from hone)]
  · rw [if_neg hsource, if_neg (show ¬ (p.shift c).syncSource ≠
      (s.shifted c expected).syncSourceIn from hsource)]

/-- The fields that the sequence number is checked against. -/
theorem checkSyncSource_fields (s : Session) (p : Packet) :
    (s.checkSyncSource p).1.expectedSequenceNumber = s.expectedSequenceNumber ∧
      (s.checkSyncSource p).1.outOfOrderPackets = s.outOfOrderPackets ∧
      (s.checkSyncSource p).1.packetsReceived = s.packetsReceived ∧
      (s.allowSequenceChange = true → (s.checkSyncSource p).1.allowSequenceChange = true) := by
  unfold Session.checkSyncSource
  split
  · split
    · exact ⟨rfl, rfl, rfl, fun _ => rfl⟩
    split
    · exact ⟨rfl, rfl, rfl, fun _ => rfl⟩
    · exact ⟨rfl, rfl, rfl, id⟩
  · exact ⟨rfl, rfl, rfl, id⟩

theorem learn_fields (s : Session) (p : Packet) :
    ((s.learnPayloadType p).learnSyncSource p).expectedSequenceNumber = s.expectedSequenceNumber ∧
      ((s.learnPayloadType p).learnSyncSource p).outOfOrderPackets = s.outOfOrderPackets ∧
      ((s.learnPayloadType p).learnSyncSource p).packetsReceived = s.packetsReceived ∧
      ((s.learnPayloadType p).learnSyncSource p).allowSequenceChange = s.allowSequenceChange := by
  unfold Session.learnSyncSource Session.learnPayloadType
  split <;> split <;> exact ⟨rfl, rfl, rfl, rfl⟩

theorem agree_onReceiveData (h : Shifted c s t) (hkept : OrderKept c s (.packet p tick)) :
    Agree c (s.onReceiveData p tick) (t.onReceiveData (p.shift c) tick) := by
  rcases h with ⟨expected, rfl, hexpected⟩
  rcases learn_fields s p with ⟨hexp, hsaved, hcount, hallow⟩
  have hpayload := (learn_shifted c expected s p).1
  have hsource := (learn_shifted c expected (s.learnPayloadType p) p).2
  unfold Session.onReceiveData
  by_cases hversion : p.version ≠ protocolVersion
  · rw [if_pos hversion, if_pos (show (p.shift c).version ≠ protocolVersion from hversion)]
    exact agree_none ⟨expected, rfl, hexpected⟩
  rw [if_neg hversion, if_neg (show ¬ (p.shift c).version ≠ protocolVersion from hversion)]
  simp only [hpayload]
  have hlearned : Shifted c (s.learnPayloadType p) ((s.learnPayloadType p).shifted c expected) := by
    refine ⟨expected, rfl, ?_⟩
    unfold Session.learnPayloadType
    split <;> exact hexpected
  have hiff : (((s.learnPayloadType p).shifted c expected).lastReceivedPayloadType ≠
        (p.shift c).payloadType ∧
      ((s.learnPayloadType p).shifted c expected).ignorePayloadTypeChanges = false) ↔
      (s.learnPayloadType p).lastReceivedPayloadType ≠ p.payloadType ∧
        (s.learnPayloadType p).ignorePayloadTypeChanges = false := Iff.rfl
  by_cases htype : (s.learnPayloadType p).lastReceivedPayloadType ≠ p.payloadType ∧
      (s.learnPayloadType p).ignorePayloadTypeChanges = false
  · rw [if_pos htype, if_pos (hiff.mpr htype)]
    exact agree_none hlearned
  rw [if_neg htype, if_neg (mt hiff.mp htype)]
  by_cases hmax : p.payloadType > maxPayloadType
  · rw [if_pos hmax, if_pos (show (p.shift c).payloadType > maxPayloadType from hmax)]
    exact agree_none hlearned
  rw [if_neg hmax, if_neg (show ¬ (p.shift c).payloadType > maxPayloadType from hmax), hsource]
  simp only [OrderKept] at hkept
  -- From here on the session has learned its source, which changes no sequence number.
  generalize (s.learnPayloadType p).learnSyncSource p = s₁ at hexp hsaved hcount hallow
  rw [← hcount, ← hsaved, ← hexp] at hexpected
  rw [← hcount, ← hsaved, ← hexp, ← hallow] at hkept
  by_cases hzero : s₁.packetsReceived = 0
  · rw [if_pos hzero, if_pos (show (s₁.shifted c expected).packetsReceived = 0 from hzero)]
    rw [if_pos hzero] at hkept
    exact agree_receiveFirst ⟨expected, rfl, hexpected⟩ hkept
  rw [if_neg hzero, if_neg (show ¬ (s₁.shifted c expected).packetsReceived = 0 from hzero),
    checkSyncSource_shifted]
  rw [if_neg hzero] at hkept
  rcases checkSyncSource_fields s₁ p with ⟨hexp', hsaved', hcount', hallow'⟩
  have hnumber : expected = (s₁.checkSyncSource p).1.expectedSequenceNumber + c := by
    rw [hexp']
    exact hexpected.resolve_right fun h0 => hzero h0.1
  generalize s₁.checkSyncSource p = r at hexp' hsaved' hallow' hnumber
  rcases r with ⟨s₂, accepted⟩
  simp only at hexp' hsaved' hallow' hnumber ⊢
  cases accepted with
  | false => exact agree_none ⟨expected, rfl, Or.inl hnumber⟩
  | true =>
      rw [← hexp', ← hsaved'] at hkept
      rw [hnumber]
      exact agree_receiveNext s₂ (hkept.imp_right (Or.imp_left hallow'))

theorem agree_readSaved (h : Shifted c s t) : Agree c s.readSaved t.readSaved := by
  rcases h with ⟨expected, rfl, hexpected⟩
  unfold Session.readSaved
  rw [show (s.shifted c expected).outOfOrderPackets =
    s.outOfOrderPackets.map (Packet.shift c) from rfl, List.getLast?_map]
  cases hback : s.outOfOrderPackets.getLast? with
  | none => exact agree_none ⟨expected, rfl, hexpected⟩
  | some q =>
      have hne : s.outOfOrderPackets ≠ [] := by
        intro hnil
        rw [hnil, List.getLast?_nil] at hback
        exact absurd hback (by simp only [reduceCtorEq, not_false_eq_true])
      obtain rfl := hexpected.resolve_right fun h0 => hne h0.2
      have hsame : (q.shift c).sequenceNumber =
          (s.shifted c (s.expectedSequenceNumber + c)).expectedSequenceNumber ↔
          q.sequenceNumber = s.expectedSequenceNumber := shift_inj
      simp only [Option.map_some]
      by_cases heq : q.sequenceNumber = s.expectedSequenceNumber
      · rw [if_neg (not_not.mpr heq), if_neg (not_not.mpr (hsame.mpr heq))]
        refine ⟨⟨q.sequenceNumber + 1 + c, ?_, Or.inl rfl⟩, rfl⟩
        simp only [Session.shifted, Packet.shift, shift_succ, List.map_dropLast]
      · rw [if_pos heq, if_pos (mt hsame.mp heq)]
        exact agree_none (shifted_self c s)

theorem agree_step {call : Call} (h : Shifted c s t) (hkept : OrderKept c s call) :
    Agree c (s.step call) (t.step (call.shift c)) := by
  cases call with
  | readBufferedData => exact agree_readSaved h
  | packet p tick => exact agree_onReceiveData h hkept

end Steps

/-- On packets whose sequence numbers are shifted by a constant, a receiver
    does the same, as long as the numbers it compares keep their order. -/
theorem receiver_relative (c : UInt16) (s : Session) (calls : List Call)
    (hnone : s.packetsReceived = 0) (hsaved : s.outOfOrderPackets = [])
    (hkept : Lib.Along Session.step (OrderKept c) s calls) :
    List.Forall₂ (SameOutcome c) (Lib.run Session.step s calls)
      (Lib.run Session.step s (calls.map (Call.shift c))) := by
  refine Lib.run_related (Shifted c) (Call.shift c) (SameOutcome c) ?_ s s calls ?_ hkept
  · intro s t call h hcall
    have hagree := agree_step h hcall
    refine ⟨hagree.1, ?_⟩
    rcases hagree with ⟨⟨expected, hafter, -⟩, houtput⟩
    refine ⟨houtput, ?_, ?_, ?_⟩ <;> simp only [Lib.stepAt, hafter] <;> rfl
  · refine ⟨s.expectedSequenceNumber, ?_, Or.inr ⟨hnone, hsaved⟩⟩
    rw [Session.shifted, hsaved, List.map_nil, ← hsaved]

section Samples

/-- Numbers that stay below 65536 with the constant added. -/
theorem receiver_relative_below :
    List.Forall₂ (SameOutcome 1000)
      (Lib.run Session.step Session.new
        [.packet (samplePacket 10) 0, .packet (samplePacket 12) 20, .packet (samplePacket 9) 40,
          .packet (samplePacket 11) 60, .readBufferedData])
      (Lib.run Session.step Session.new
        ([.packet (samplePacket 10) 0, .packet (samplePacket 12) 20, .packet (samplePacket 9) 40,
          .packet (samplePacket 11) 60, .readBufferedData].map (Call.shift 1000))) :=
  receiver_relative 1000 Session.new _ rfl rfl (by decide +kernel)

/-- After packet 65534, packet 0 is ignored as a late one. With two added, the
    numbers are 0 and 2, and the second packet is saved. -/
theorem receiver_absolute :
    ¬ List.Forall₂ (SameOutcome 2)
      (Lib.run Session.step Session.new
        [.packet (samplePacket 65534) 0, .packet (samplePacket 0) 20])
      (Lib.run Session.step Session.new
        ([.packet (samplePacket 65534) 0, .packet (samplePacket 0) 20].map (Call.shift 2))) := by
  intro h
  cases h with
  | cons _ h =>
    cases h with
    | cons h _ => exact absurd h.saved (by decide +kernel)

end Samples

end Rtp

end CryptoOpal

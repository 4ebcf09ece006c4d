import CryptoOpal.Rtp.ControlReceiver

/-!
# What the Receiver of Control Frames Reads

A read of `OnReceiveControl` is in its place if it lies in the payload of the
packet it is made for, which ends where the length of the packet says, and no
later than the frame. Whether that is so can be told from the packet, type by
type: reports are always read in place, a packet for an application needs eight
octets, a Goodbye packet sixteen for each source and the whole of its reason,
and a source description an end behind its first items.

## Main definitions

* `ItemsEnd`: Items of a source with an end behind them.
* `PayloadFits`: The reads for a packet are in their place.
* `ReadsInside`: The reads of `OnReceiveControl` are.
* `ControlFits`: The packets of a frame are such that they are.

## Theorems

* `within_walkItems`: The loop over the items.
* `within_onPacket`: One packet.
* `windows_inside`: The packets of an accepted frame lie in it.
* `control_reads_inside`: A control frame.
-/

namespace CryptoOpal

namespace Rtp

open Lib (Octets slice ofBigEndian Traced fetch within_bind within_pure within_fetch
  within_fetch_pos)
open Srtp (Stop)

/-- Items of a source with an end behind them, and whatever follows. -/
inductive ItemsEnd : Octets → Prop where
  | last (rest : Octets) : ItemsEnd (eEND :: rest)
  | item (type length : UInt8) (data rest : Octets) : type ≠ eEND → data.length = length.toNat →
      ItemsEnd rest → ItemsEnd (type :: length :: (data ++ rest))

theorem not_itemsEnd_nil : ¬ ItemsEnd [] := by
  intro h
  cases h

theorem not_itemsEnd_singleton {type : UInt8} (htype : type ≠ eEND) : ¬ ItemsEnd [type] := by
  intro h
  cases h
  exact htype rfl

theorem itemsEnd_cons {type length : UInt8} {data : Octets} (htype : type ≠ eEND) :
    ItemsEnd (type :: length :: data) ↔
      length.toNat ≤ data.length ∧ ItemsEnd (data.drop length.toNat) := by
  constructor
  · intro h
    cases h with
    | last rest => exact absurd rfl htype
    | item _ _ text rest _ hlen hrest =>
        rw [← hlen, List.length_append, List.drop_left]
        exact ⟨Nat.le_add_right _ _, hrest⟩
  · rintro ⟨hlen, hrest⟩
    have hsplit := ItemsEnd.item type length (data.take length.toNat) _ htype
      (by rw [List.length_take, Nat.min_eq_left hlen]) hrest
    rwa [List.take_append_drop] at hsplit

section Packet

variable {memory : Nat → UInt8} {lo hi payload size : Nat}

theorem within_number (off : Nat) {len : Nat} (hlen : 0 < len) :
    (number memory off len).Within lo hi ↔ lo ≤ off ∧ off + len ≤ hi := by
  rw [number, Lib.within_map, within_fetch_pos memory hlen]

/-- A report is read inside of its own octets. -/
theorem within_readReceiverReport {rr : Nat} (hlo : lo ≤ rr) (hhi : rr + 24 ≤ hi) :
    (readReceiverReport memory rr).Within lo hi := by
  simp only [readReceiverReport, within_bind, number, Lib.within_map, within_fetch]
  exact ⟨by omega, by omega, by omega, by omega, by omega, by omega, by omega, within_pure _⟩

theorem within_buildReceiverReportArray {rr : Nat} (count : Nat) (hlo : lo ≤ rr)
    (hhi : rr + count * 24 ≤ hi) : (buildReceiverReportArray memory rr count).Within lo hi := by
  induction count generalizing rr with
  | zero => exact within_pure _
  | succ count ih =>
      rw [buildReceiverReportArray, within_bind, within_bind]
      refine ⟨within_readReceiverReport hlo (by omega), ih ?_ ?_, within_pure _⟩
      · exact Nat.le_add_right_of_le hlo
      · rw [receiverReportSize]
        omega

theorem within_readExtendedReport {rr : Nat} (hlo : lo ≤ rr) (hhi : rr + 36 ≤ hi) :
    (readExtendedReport memory rr).Within lo hi := by
  simp only [readExtendedReport, within_bind, number, Lib.within_map, within_fetch]
  exact ⟨by omega, by omega, by omega, by omega, by omega, by omega, by omega, by omega, by omega,
    by omega, by omega, by omega, within_pure _⟩

theorem within_buildExtendedReportArray {rr : Nat} (count : Nat) (hlo : lo ≤ rr)
    (hhi : rr + count * 36 ≤ hi) : (buildExtendedReportArray memory rr count).Within lo hi := by
  induction count generalizing rr with
  | zero => exact within_pure _
  | succ count ih =>
      rw [buildExtendedReportArray, within_bind, within_bind]
      refine ⟨within_readExtendedReport hlo (by omega), ih ?_ ?_, within_pure _⟩
      · exact Nat.le_add_right_of_le hlo
      · rw [extendedReportSize]
        omega

/-- A sender report is read inside of the payload, or not at all. -/
theorem within_onSenderReport (count : Nat) :
    (onSenderReport memory payload size count).Within payload (payload + size) := by
  rw [onSenderReport]
  split
  · rename_i hroom
    rw [senderReportSize, receiverReportSize] at hroom
    simp only [within_bind, number, Lib.within_map, within_fetch]
    refine ⟨by omega, by omega, by omega, by omega, by omega, by omega, ?_, within_pure _⟩
    apply within_buildReceiverReportArray
    · omega
    · rw [senderReportSize]
      omega
  · exact within_pure _

theorem within_onReceiverReport (count : Nat) :
    (onReceiverReport memory payload size count).Within payload (payload + size) := by
  rw [onReceiverReport]
  split
  · rename_i hroom
    rw [receiverReportSize] at hroom
    simp only [within_bind, number, Lib.within_map, within_fetch]
    refine ⟨by omega, ?_, within_pure _⟩
    apply within_buildReceiverReportArray
    · omega
    · omega
  · exact within_pure _

theorem within_onExtendedReport (count : Nat) :
    (onExtendedReport memory payload size count).Within payload (payload + size) := by
  rw [onExtendedReport]
  split
  · rename_i hroom
    rw [extendedReportSize] at hroom
    simp only [within_bind, number, Lib.within_map, within_fetch]
    refine ⟨by omega, ?_, within_pure _⟩
    apply within_buildExtendedReportArray
    · omega
    · omega
  · exact within_pure _

section Payload

variable {p : Octets}

/-- The octet that is next in what is left of the payload. -/
theorem drop_eq_cons (hp : p.length = size)
    (hmemory : ∀ i < size, memory (payload + i) = p.getD i 0) {i a : Nat} (hi : i < size)
    (ha : a = payload + i) : p.drop i = memory a :: p.drop (i + 1) := by
  have hlt : i < p.length := by omega
  rw [ha, hmemory i hi, List.drop_eq_getElem_cons hlt, List.getD_eq_getElem?_getD,
    List.getElem?_eq_getElem hlt, Option.getD_some]

/-- The loop over the items reads in place if it comes to an end that is
    behind items in the payload. If it gives up instead, it has read the last
    item behind the payload, where the four octets of the source are missing
    in the size. -/
theorem within_walkItems (hp : p.length = size)
    (hmemory : ∀ i < size, memory (payload + i) = p.getD i 0) (rounds cur : Nat)
    (items : List Item) (hcur : cur < size) (hrounds : size ≤ cur + rounds) :
    (walkItems memory size rounds (payload + 4 + cur) cur items).Within payload
      (payload + size) ↔ ItemsEnd (p.drop (4 + cur)) := by
  induction rounds generalizing cur items with
  | zero => omega
  | succ rounds ih =>
      rw [walkItems, within_bind, within_fetch_pos memory Nat.one_pos,
        Lib.getD_fetch memory _ Nat.one_pos]
      by_cases hin : 4 + cur < size
      · rw [drop_eq_cons hp hmemory hin (Nat.add_assoc payload 4 cur)]
        have hhere : payload ≤ payload + 4 + cur ∧ payload + 4 + cur + 1 ≤ payload + size := by
          omega
        rw [and_iff_right hhere]
        by_cases hend : memory (payload + 4 + cur) = eEND
        · rw [if_pos hend, hend]
          exact iff_of_true (within_pure _) (ItemsEnd.last _)
        rw [if_neg hend, within_bind, within_fetch_pos memory Nat.one_pos,
          Lib.getD_fetch memory _ Nat.one_pos]
        by_cases hlength : 4 + cur + 1 < size
        · have hplace : payload + 4 + cur + 1 = payload + (4 + cur + 1) := by omega
          rw [drop_eq_cons hp hmemory hlength hplace, itemsEnd_cons hend, List.drop_drop,
            List.length_drop, within_bind, within_fetch]
          have hthere : payload ≤ payload + 4 + cur + 1 ∧
              payload + 4 + cur + 1 + 1 ≤ payload + size := by
            omega
          rw [and_iff_right hthere]
          generalize (memory (payload + 4 + cur + 1)).toNat = length
          -- The text is in the payload, or the rest of the walk does not matter.
          by_cases hfit : length ≤ p.length - (4 + cur + 1 + 1)
          · have htext : length = 0 ∨ payload ≤ payload + 4 + cur + 2 ∧
                payload + 4 + cur + 2 + length ≤ payload + size := by
              omega
            have hgoes : ¬ size ≤ cur + (length + 2) := by omega
            rw [and_iff_right htext, and_iff_right hfit]
            simp only [if_neg hgoes]
            have hnext := ih (cur + (length + 2))
              (Lib.setKey Item.type ⟨memory (payload + 4 + cur), text
                (fetch memory (payload + 4 + cur + 2) length).value⟩ items) (by omega) (by omega)
            rw [← Nat.add_assoc] at hnext
            rw [hnext]
            have hplace : 4 + (cur + (length + 2)) = 4 + cur + 1 + 1 + length := by omega
            rw [hplace]
          · exact iff_of_false (fun h => by omega) (fun h => hfit h.1)
        · have hnone : p.drop (4 + cur + 1) = [] := List.drop_eq_nil_of_le (by omega)
          rw [hnone]
          exact iff_of_false (fun h => by omega) (not_itemsEnd_singleton hend)
      · have hnone : p.drop (4 + cur) = [] := List.drop_eq_nil_of_le (by omega)
        rw [hnone]
        exact iff_of_false (fun h => by omega) not_itemsEnd_nil

/-- The item that the loop stops at is an end, and has been read. -/
theorem walkItems_stop {rounds item cur : Nat} {items : List Item} {stop : Nat}
    (h : (walkItems memory size rounds item cur items).value.2 = some stop) :
    memory stop = eEND ∧ ⟨stop, 1⟩ ∈ (walkItems memory size rounds item cur items).reads := by
  induction rounds generalizing item cur items with
  | zero => exact absurd h (by simp only [walkItems, Lib.value_pure, reduceCtorEq, not_false_eq_true])
  | succ rounds ih =>
      rw [walkItems] at h ⊢
      rw [Lib.value_bind, Lib.getD_fetch memory _ Nat.one_pos] at h
      rw [Lib.reads_bind, Lib.getD_fetch memory _ Nat.one_pos]
      by_cases hend : memory item = eEND
      · rw [if_pos hend, Lib.value_pure, Option.some.injEq] at h
        rw [← h]
        exact ⟨hend, List.mem_append_left _ List.mem_cons_self⟩
      · rw [if_neg hend, Lib.value_bind, Lib.value_bind] at h
        rw [if_neg hend, Lib.reads_bind, Lib.reads_bind]
        by_cases hgoes : size ≤ cur + (((fetch memory (item + 1) 1).value.getD 0 0).toNat + 2)
        · simp only [if_pos hgoes, Lib.value_pure, reduceCtorEq] at h
        · simp only [if_neg hgoes] at h ⊢
          refine ⟨(ih h).1, ?_⟩
          exact List.mem_append_right _ (List.mem_append_right _ (List.mem_append_right _ (ih h).2))

/-- Only the first source is looked at. -/
theorem within_walkSources (hp : p.length = size)
    (hmemory : ∀ i < size, memory (payload + i) = p.getD i 0) (count : Nat) (hsize : 4 ≤ size) :
    (walkSources memory size (count + 1) payload).Within payload (payload + size) ↔
      ItemsEnd (p.drop 4) := by
  have hitems := within_walkItems hp hmemory size 0 [] (by omega) (by omega)
  rw [Nat.add_zero, Nat.add_zero] at hitems
  have hsrc : payload ≤ payload ∧ payload + 4 ≤ payload + size := by omega
  rw [walkSources, within_bind, within_number payload (by decide), and_iff_right hsrc, within_bind,
    ← hitems]
  apply and_iff_left_of_imp
  intro hwithin
  cases hstop : (walkItems memory size size (payload + 4) 0 []).value.2 with
  | none => exact within_pure _
  | some stop =>
      -- The type of the last item is read once more.
      rcases walkItems_stop hstop with ⟨hend, hread⟩
      simp only [within_bind, Lib.getD_fetch memory _ Nat.one_pos, if_pos hend]
      refine ⟨?_, within_pure _⟩
      intro span hspan
      rw [List.mem_singleton.mp hspan]
      exact hwithin _ hread

end Payload

theorem within_readWords (off count : Nat) :
    (readWords memory off count).Within lo hi ↔ count = 0 ∨ lo ≤ off ∧ off + 4 * count ≤ hi := by
  induction count generalizing off with
  | zero => exact iff_of_true (within_pure _) (Or.inl rfl)
  | succ count ih =>
      rw [readWords, within_bind, within_number off (by decide), within_bind, ih]
      have hpure : (pure ((number memory off 4).value ::
          (readWords memory (off + 4) count).value) : Traced (List Nat)).Within lo hi := within_pure _
      rw [and_iff_left hpure]
      omega

/-- The sources and the reason of a Goodbye packet are in the payload. -/
def GoodbyeFits (count : Nat) (p : Octets) : Prop :=
  16 * count ≤ p.length ∧
    (4 * count < p.length → (p.getD (4 * count) 0).toNat + 5 ≤ p.length →
      4 * count + 1 + (p.getD (4 * count) 0).toNat ≤ p.length)

/-- The reads for a packet with this payload are in their place. -/
def PayloadFits (type : UInt8) (count : Nat) (p : Octets) : Prop :=
  match type.toNat with
  | 202 => 0 < count → count * sourceDescriptionSize ≤ p.length → ItemsEnd (p.drop 4)
  | 203 => GoodbyeFits count p
  | 204 => 8 ≤ p.length
  | _ => True

section Payload

variable {p : Octets}

theorem within_onSourceDescription (hp : p.length = size)
    (hmemory : ∀ i < size, memory (payload + i) = p.getD i 0) (count : Nat) (hsize : 4 ≤ size) :
    (onSourceDescription memory payload size count).Within payload (payload + size) ↔
      (0 < count → count * sourceDescriptionSize ≤ p.length → ItemsEnd (p.drop 4)) := by
  rw [onSourceDescription, hp]
  split
  · rename_i hroom
    rw [within_bind, and_iff_left (within_pure _)]
    cases count with
    | zero => exact iff_of_true (within_pure _) (fun h => absurd h (Nat.lt_irrefl 0))
    | succ count =>
        rw [within_walkSources hp hmemory count hsize]
        exact ⟨fun h _ _ => h, fun h => h (Nat.succ_pos _) hroom⟩
  · rename_i hroom
    exact iff_of_true (within_pure _) (fun _ h => absurd h hroom)

/-- The reason is read behind the sources as they should be counted. -/
theorem within_readReason (hp : p.length = size)
    (hmemory : ∀ i < size, memory (payload + i) = p.getD i 0) (count : Nat) :
    (readReason memory payload size count).Within payload (payload + size) ↔
      (count < p.length → (p.getD count 0).toNat + 5 ≤ p.length →
        count + 1 + (p.getD count 0).toNat ≤ p.length) := by
  rw [readReason, hp]
  by_cases hmore : size > count
  · rw [if_pos hmore, within_bind, within_fetch_pos memory Nat.one_pos,
      Lib.getD_fetch memory _ Nat.one_pos, hmemory count hmore]
    generalize (p.getD count 0).toNat = length
    have hhere : payload ≤ payload + count ∧ payload + count + 1 ≤ payload + size := by omega
    rw [and_iff_right hhere]
    by_cases hshort : size ≥ length + 4 + 1
    · rw [if_pos hshort, Lib.within_map, within_fetch]
      omega
    · rw [if_neg hshort]
      exact iff_of_true (within_pure _) (fun _ h => absurd h hshort)
  · rw [if_neg hmore]
    exact iff_of_true (within_pure _) (fun h => absurd h hmore)

theorem within_onGoodbye (hp : p.length = size)
    (hmemory : ∀ i < size, memory (payload + i) = p.getD i 0) (count : Nat) (hsize : 4 ≤ size) :
    (onGoodbye memory payload size count).Within payload (payload + size) ↔ GoodbyeFits count p := by
  have hsources : (count * 4 = 0 ∨ payload ≤ payload ∧ payload + 4 * (count * 4) ≤ payload + size) ↔
      16 * count ≤ p.length := by
    omega
  rw [onGoodbye, if_pos hsize]
  simp only [within_bind]
  rw [and_iff_left (within_pure _), within_readReason hp hmemory, within_readWords, hsources,
    GoodbyeFits, and_comm, Nat.mul_comm count 4]

theorem within_onApplDefined (hp : p.length = size) (count : Nat) (hsize : 4 ≤ size) :
    (onApplDefined memory payload size count).Within payload (payload + size) ↔ 8 ≤ p.length := by
  rw [onApplDefined, if_pos hsize, within_bind, within_bind, within_fetch_pos memory (by decide),
    within_number payload (by decide), and_iff_left (within_pure _)]
  omega

/-- A packet of any type. -/
theorem within_onPacket (hp : p.length = size)
    (hmemory : ∀ i < size, memory (payload + i) = p.getD i 0) (type : UInt8) (count : Nat)
    (hsize : 4 ≤ size) :
    (onPacket memory type payload size count).Within payload (payload + size) ↔
      PayloadFits type count p := by
  rw [onPacket, PayloadFits]
  generalize type.toNat = t
  split
  · exact iff_of_true (within_pure _) trivial
  · exact iff_of_true (within_onSenderReport count) trivial
  · exact iff_of_true (within_onReceiverReport count) trivial
  · exact within_onSourceDescription hp hmemory count hsize
  · exact within_onGoodbye hp hmemory count hsize
  · exact within_onApplDefined hp count hsize
  · exact iff_of_true (within_pure _) trivial
  · exact iff_of_true (within_onExtendedReport count) trivial
  · -- No other type is read, and none of them asks for anything.
    rename_i h202 h203 h204 _ _
    refine iff_of_true (within_pure _) ?_
    split
    · exact absurd rfl h202
    · exact absurd rfl h203
    · exact absurd rfl h204
    · trivial

end Payload

end Packet

section Frame

variable {octets : Octets} {off ps : Nat}

/-- The size in the header at `off`. -/
def sizeAt (octets : Octets) (off : Nat) : Nat := 4 * ofBigEndian (slice octets (off + 2) 2)

/-- A header at `off`, with its payload, is in the frame. -/
def HeaderAt (octets : Octets) (off : Nat) : Prop := off + 4 + sizeAt octets off ≤ octets.length

instance (octets : Octets) (off : Nat) : Decidable (HeaderAt octets off) :=
  inferInstanceAs (Decidable (_ ≤ _))

/-- A part of the header that is in the frame. -/
theorem get_header (h : off + 4 ≤ octets.length) {i len : Nat} (hi : i + len ≤ 4) :
    ControlFrame.get ⟨octets, off, ps⟩ i len = .ok (slice octets (off + i) len) := by
  rw [ControlFrame.get]
  exact readAt_of_le (by simp only; omega)

theorem getPayloadSize_header (h : off + 4 ≤ octets.length) :
    ControlFrame.getPayloadSize ⟨octets, off, ps⟩ = .ok (sizeAt octets off) := by
  rw [ControlFrame.getPayloadSize, get_header h (by decide)]
  rfl

/-- The packet that the loop is at. -/
theorem window_header (ps : Nat) (h : HeaderAt octets off) :
    ∃ type count, ControlFrame.window ⟨octets, off, ps⟩ = .ok (if sizeAt octets off = 0 then none
      else some ⟨type, count, off + 4, sizeAt octets off⟩) := by
  have hroom : off + 4 ≤ octets.length := Nat.le_trans (Nat.le_add_right _ _) h
  refine ⟨(slice octets (off + 1) 1).getD 0 0, ((slice octets (off + 0) 1).getD 0 0).toNat % 32, ?_⟩
  have htype : ControlFrame.getPayloadType ⟨octets, off, ps⟩ =
      .ok ((slice octets (off + 1) 1).getD 0 0) := by
    rw [ControlFrame.getPayloadType, get_header hroom (by decide)]
    rfl
  have hcount : ControlFrame.getCount ⟨octets, off, ps⟩ =
      .ok (((slice octets (off + 0) 1).getD 0 0).toNat % 32) := by
    rw [ControlFrame.getCount, get_header hroom (by decide)]
    rfl
  simp only [ControlFrame.window, ControlFrame.getPayloadPtr, getPayloadSize_header hroom, htype,
    hcount, bind, Except.bind]
  rw [HeaderAt] at h
  by_cases hsize : sizeAt octets off = 0
  · rw [if_pos (Or.inl hsize), if_pos hsize]
  · rw [if_neg (by omega), if_neg hsize]
    simp only
    rw [if_neg (by omega)]

/-- The next packet is in the frame too, if the loop comes to it. -/
theorem readNextPacket_header (ps : Nat) (h : HeaderAt octets off) :
    ∃ more, ControlFrame.readNextPacket ⟨octets, off, ps⟩ =
        .ok (more, ⟨octets, off + (sizeAt octets off + 4), ps⟩) ∧
      (more = true → HeaderAt octets (off + (sizeAt octets off + 4))) := by
  have hroom : off + 4 ≤ octets.length := Nat.le_trans (Nat.le_add_right _ _) h
  simp only [ControlFrame.readNextPacket, getPayloadSize_header hroom, bind, Except.bind]
  by_cases hnext : octets.length < off + (sizeAt octets off + 4) + 4
  · rw [if_pos hnext]
    exact ⟨false, rfl, fun hmore => absurd hmore Bool.false_ne_true⟩
  · rw [if_neg hnext, getPayloadSize_header (by omega)]
    refine ⟨_, rfl, ?_⟩
    intro hmore
    have hfits := of_decide_eq_true hmore
    rw [HeaderAt]
    omega

/-- The packets of a frame are in it. -/
theorem windows_inside (closeOnBye : Bool) (rounds ps : Nat) (h : HeaderAt octets off) :
    ∃ ws, ControlFrame.windows closeOnBye rounds ⟨octets, off, ps⟩ = .ok ws ∧
      ∀ w ∈ ws, 4 ≤ w.size ∧ w.payload + w.size ≤ octets.length := by
  induction rounds generalizing off with
  | zero => exact ⟨[], rfl, fun w hw => absurd hw List.not_mem_nil⟩
  | succ rounds ih =>
      rcases window_header ps h with ⟨type, count, hwindow⟩
      rcases readNextPacket_header ps h with ⟨more, hnext, hmore⟩
      simp only [ControlFrame.windows, hwindow, bind, Except.bind, hnext]
      rw [HeaderAt] at h
      by_cases hsize : sizeAt octets off = 0
      · rw [if_pos hsize]
        exact ⟨[], rfl, fun w hw => absurd hw List.not_mem_nil⟩
      have hhere : 4 ≤ sizeAt octets off ∧ off + 4 + sizeAt octets off ≤ octets.length := by
        rw [sizeAt] at hsize h ⊢
        omega
      rw [if_neg hsize]
      simp only
      split
      · refine ⟨_, rfl, ?_⟩
        intro w hw
        rw [List.mem_singleton.mp hw]
        exact hhere
      · cases more with
        | false =>
            refine ⟨_, rfl, ?_⟩
            intro w hw
            rw [List.mem_singleton.mp hw]
            exact hhere
        | true =>
            rcases ih (hmore rfl) with ⟨ws, hws, hinside⟩
            simp only [if_true, hws, Except.map]
            refine ⟨_, rfl, ?_⟩
            intro w hw
            rcases List.mem_cons.mp hw with hfirst | hlater
            · rw [hfirst]
              exact hhere
            · exact hinside w hlater

end Frame

/-- Every read for a packet of the frame is in its payload, and the payload is
    in the frame. -/
def ReadsInside (closeOnBye : Bool) (octets : Octets) (beyond : Nat → UInt8) : Prop :=
  ∃ ws events, ControlFrame.windows closeOnBye octets.length ⟨octets, 0, 0⟩ = .ok ws ∧
    onReceiveControl closeOnBye octets beyond = .ok events ∧
    List.Forall₂ (fun w event => w.payload + w.size ≤ octets.length ∧
      Traced.Within w.payload (w.payload + w.size) event) ws events

/-- The packets of the frame are such that it is so. -/
def ControlFits (closeOnBye : Bool) (octets : Octets) : Prop :=
  ∃ ws, ControlFrame.windows closeOnBye octets.length ⟨octets, 0, 0⟩ = .ok ws ∧
    ∀ w ∈ ws, PayloadFits w.type w.count (slice octets w.payload w.size)

/-- The memory has the payload where the packet has it. -/
theorem frameMemory_payload {octets : Octets} (beyond : Nat → UInt8) {payload size : Nat}
    (h : payload + size ≤ octets.length) (i : Nat) (hi : i < size) :
    frameMemory octets beyond (payload + i) = (slice octets payload size).getD i 0 := by
  have hlt : payload + i < octets.length := by omega
  rw [frameMemory, slice, List.getD_eq_getElem?_getD, List.getElem?_take_of_lt hi, List.getElem?_drop,
    List.getElem?_eq_getElem hlt, Option.getD_some, Option.getD_some]

/-- The receiver of control frames reads only what was received, for the frames
    whose packets are such that it does. -/
theorem control_reads_inside (closeOnBye : Bool) (octets : Octets) (beyond : Nat → UInt8)
    (haccepted : AcceptedControl octets) :
    ReadsInside closeOnBye octets beyond ↔ ControlFits closeOnBye octets := by
  have hheader : HeaderAt octets 0 := by
    rw [HeaderAt, sizeAt]
    exact haccepted.2
  rcases windows_inside closeOnBye octets.length 0 hheader with ⟨ws, hws, hinside⟩
  have hpacket : ∀ w ∈ ws, (w.payload + w.size ≤ octets.length ∧
      (w.event (frameMemory octets beyond)).Within w.payload (w.payload + w.size) ↔
        PayloadFits w.type w.count (slice octets w.payload w.size)) := by
    intro w hw
    rcases hinside w hw with ⟨hsize, hroom⟩
    have hlength : (slice octets w.payload w.size).length = w.size := by
      rw [Lib.length_slice]
      omega
    rw [and_iff_right hroom, ControlWindow.event]
    exact within_onPacket hlength (frameMemory_payload beyond hroom) w.type w.count hsize
  have hevents : onReceiveControl closeOnBye octets beyond =
      .ok (ws.map (ControlWindow.event (frameMemory octets beyond))) := by
    rw [onReceiveControl, hws]
    rfl
  constructor
  · rintro ⟨ws', events, hws', hevents', hall⟩
    rw [hws, Except.ok.injEq] at hws'
    rw [hevents, Except.ok.injEq] at hevents'
    rw [← hws', ← hevents', List.forall₂_map_right_iff, List.forall₂_same] at hall
    exact ⟨ws, hws, fun w hw => (hpacket w hw).mp (hall w hw)⟩
  · rintro ⟨ws', hws', hfits⟩
    rw [hws, Except.ok.injEq] at hws'
    rw [← hws'] at hfits
    refine ⟨ws, _, hws, hevents, ?_⟩
    rw [List.forall₂_map_right_iff, List.forall₂_same]
    exact fun w hw => (hpacket w hw).mpr (hfits w hw)

/-- A receiver report, and the name of a source with an end behind it. -/
def sampleControl : Octets :=
  [0x80, 201, 0, 1, 0, 0, 0, 7] ++ [0x81, 202, 0, 3, 0, 0, 0, 7, 1, 3, 97, 98, 99, 0, 0, 0]

/-- These are read in place. -/
theorem control_reads_inside_items : ReadsInside true sampleControl fun _ => 255 := by
  refine (control_reads_inside true sampleControl (fun _ => 255) (by decide)).mpr
    ⟨[⟨201, 0, 4, 4⟩, ⟨202, 1, 12, 12⟩], by decide +kernel, ?_⟩
  intro w hw
  rcases List.mem_cons.mp hw with rfl | hw
  · trivial
  · rw [List.mem_singleton.mp hw]
    intro _ _
    exact ItemsEnd.item 1 3 [97, 98, 99] [0, 0, 0] (by decide) rfl (ItemsEnd.last _)

/-- A Goodbye packet of one source. -/
def sampleGoodbye : Octets := [0x81, 203, 0, 1, 0, 0, 0, 7]

/-- Its source is read as four of them. -/
theorem goodbye_reads_outside :
    ¬ ∀ closeOnBye octets beyond, AcceptedControl octets → ReadsInside closeOnBye octets beyond := by
  intro h
  rcases h true sampleGoodbye (fun _ => 0) (by decide) with ⟨ws, events, hws, hevents, hall⟩
  have hwindows : ControlFrame.windows true sampleGoodbye.length ⟨sampleGoodbye, 0, 0⟩ =
      .ok [⟨203, 1, 4, 4⟩] := by
    decide +kernel
  rw [hwindows, Except.ok.injEq] at hws
  rw [onReceiveControl, hwindows] at hevents
  rw [← hws] at hall
  simp only [Except.map, Except.ok.injEq, List.map_cons, List.map_nil] at hevents
  rw [← hevents, List.forall₂_cons] at hall
  -- The second word is read behind the frame.
  have hsecond := hall.1.2 ⟨8, 4⟩ (by decide +kernel)
  simp only [Lib.Span.Within] at hsecond
  omega

end Rtp

end CryptoOpal

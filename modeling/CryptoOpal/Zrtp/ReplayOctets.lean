import CryptoOpal.Lib.InPlace
import CryptoOpal.Zrtp.ReplayList
import Mathlib.Data.List.Induction
import Mathlib.Order.Bounds.Basic

/-!
# The Replay Window of libzrtp, Octet by Octet

The window of a replay node is an array of octets. It is shifted in place, by
whole octets and then by bits with a carry from the next octet, and the bit of
the highest index is the last one. Here are the functions as they work on the
array, and what they come to: a shift by `d` moves bit `i + d` to bit `i`
(`getBit_leftShift`), so the array does what the number of `ReplayProtection`
does (`represents_add`).

The window is exact. It accepts an index unless it has accepted it before, or
the index is too far below the highest one to be remembered
(`replay_window_exact`).

## Main definitions

* `bitmapGetBit`, `bitmapSetBit`, `bitmapLeftShift`: The functions on octets.
* `ReplayOctets`: `zrtp_srtp_rp_t`, with `check` and `add`.
* `ReplayOctets.Represents`: The octets and the number have the same bits.
* `ReplayOctets.run`: Check, and add what was found to be good.

## Theorems

* `getBit_leftShift`, `getBit_setBit`: What the functions do to a bit.
* `check_eq`, `represents_add`: They do the same as those on numbers.
* `run_refines`: The same for a run.
* `exact_add`: The step: a good index is marked.
* `replay_window_exact`: What is accepted over a run.
-/

namespace CryptoOpal

namespace Zrtp

open Lib (forLoop LooksAhead Tracks place)

/-- `ZRTP_SRTP_WINDOW_WIDTH_BYTES`. -/
def windowWidthBytes : Nat := 16

/-- An array of octets. -/
abbrev Bitmap := List (BitVec 8)

/-- An octet of the array. -/
def octet (x : Bitmap) (i : Nat) : BitVec 8 := x.getD i 0

/-- `zrtp_bitmap_get_bit`. -/
def bitmapGetBit (x : Bitmap) (bit : Nat) : Bool := (octet x (bit / 8)).getLsbD (bit % 8)

/-- `zrtp_bitmap_set_bit`. -/
def bitmapSetBit (x : Bitmap) (bit : Nat) : Bitmap :=
  x.set (bit / 8) (octet x (bit / 8) ||| BitVec.twoPow 8 (bit % 8))

/-- `zrtp_bitmap_left_shift`. -/
def bitmapLeftShift (x : Bitmap) (widthBytes index : Nat) : Bitmap :=
  let baseIndex := index / 8
  let bitIndex := index % 8
  if index > widthBytes * 8 then forLoop 0 widthBytes (fun _ _ => 0) x
  else
    let moved :=
      if bitIndex = 0 then forLoop 0 (widthBytes - baseIndex) (fun x i => octet x (i + baseIndex)) x
      else
        let carried := forLoop 0 (widthBytes - baseIndex - 1) (fun x i =>
          (octet x (i + baseIndex) >>> bitIndex) ^^^
            (octet x (i + baseIndex + 1) <<< (8 - bitIndex))) x
        carried.set (widthBytes - baseIndex - 1) (octet carried (widthBytes - 1) >>> bitIndex)
    -- Now wrap up the final portion.
    forLoop (widthBytes - baseIndex) baseIndex (fun _ _ => 0) moved

section Octets

variable {x : Bitmap}

theorem octet_of_getElem? {i : Nat} {o : BitVec 8} (h : x[i]? = some o) : octet x i = o := by
  rw [octet, List.getD_eq_getElem?_getD, h, Option.getD_some]

theorem octet_of_le {i : Nat} (h : x.length ≤ i) : octet x i = 0 := by
  rw [octet, List.getD_eq_getElem?_getD, List.getElem?_eq_none h, Option.getD_none]

theorem octet_congr {x y : Bitmap} {i : Nat} (h : x[i]? = y[i]?) : octet x i = octet y i := by
  rw [octet, octet, List.getD_eq_getElem?_getD, List.getD_eq_getElem?_getD, h]

/-- An octet moved down by whole octets, and by bits with a carry. -/
def shiftedOctet (x : Bitmap) (index i : Nat) : BitVec 8 :=
  (octet x (i + index / 8) >>> (index % 8)) ^^^
    (if index % 8 = 0 then 0 else octet x (i + index / 8 + 1) <<< (8 - index % 8))

/-- Beyond the end there is nothing to move. -/
theorem shiftedOctet_of_le {index i : Nat} (h : x.length ≤ i + index / 8) :
    shiftedOctet x index i = 0 := by
  rw [shiftedOctet, octet_of_le h, octet_of_le (Nat.le_succ_of_le h)]
  by_cases hbit : index % 8 = 0
  · simp only [if_pos hbit, BitVec.ofNat_eq_ofNat, BitVec.zero_ushiftRight, BitVec.xor_self]
  · simp only [if_neg hbit, BitVec.ofNat_eq_ofNat, BitVec.zero_ushiftRight, BitVec.zero_shiftLeft,
      BitVec.xor_self]

/-- The loop for whole octets looks ahead. -/
theorem looksAhead_octets (base : Nat) :
    LooksAhead fun (x : Bitmap) i => octet x (i + base) := by
  intro b b' i h
  exact octet_congr (h (i + base) (Nat.le_add_right i base))

/-- The loop with the carry looks ahead. -/
theorem looksAhead_carry (base bit : Nat) : LooksAhead fun (x : Bitmap) i =>
    (octet x (i + base) >>> bit) ^^^ (octet x (i + base + 1) <<< (8 - bit)) := by
  intro b b' i h
  have hthis := octet_congr (h (i + base) (by omega))
  have hnext := octet_congr (h (i + base + 1) (by omega))
  simp only [hthis, hnext]

/-- The loop that clears looks at nothing. -/
theorem looksAhead_clear : LooksAhead fun (_ : Bitmap) _ => (0 : BitVec 8) := fun _ _ _ _ => rfl

/-- The shift, octet by octet. -/
theorem octet_leftShift {widthBytes : Nat} (hlen : x.length = widthBytes) (index : Nat) {i : Nat}
    (hi : i < widthBytes) : octet (bitmapLeftShift x widthBytes index) i =
      shiftedOctet x index i := by
  rw [bitmapLeftShift]
  by_cases hfar : index > widthBytes * 8
  · -- Everything is shifted out.
    have hzero : shiftedOctet x index i = 0 := shiftedOctet_of_le (by omega)
    rw [if_pos hfar, hzero]
    apply octet_of_getElem?
    rw [Lib.getElem?_forLoop 0 widthBytes _ looksAhead_clear x (by omega), if_pos (by omega)]
  · rw [if_neg hfar]
    apply octet_of_getElem?
    by_cases hbit : index % 8 = 0
    · simp only [if_pos hbit]
      rw [Lib.getElem?_forLoop _ _ _ looksAhead_clear _ (by rw [Lib.length_forLoop]; omega)]
      by_cases hin : widthBytes - index / 8 ≤ i
      · rw [if_pos (by omega), shiftedOctet_of_le (by omega)]
      · rw [if_neg (by omega), Lib.getElem?_forLoop _ _ _ (looksAhead_octets (index / 8)) x (by omega),
          if_pos (by omega), shiftedOctet, if_pos hbit, hbit]
        simp only [BitVec.ushiftRight_zero, BitVec.ofNat_eq_ofNat, BitVec.xor_zero]
    · simp only [if_neg hbit]
      have hcarry := Lib.getElem?_forLoop 0 (widthBytes - index / 8 - 1) _
        (looksAhead_carry (index / 8) (index % 8)) x (by omega)
      rw [Lib.getElem?_forLoop _ _ _ looksAhead_clear _
        (by rw [List.length_set, Lib.length_forLoop]; omega)]
      by_cases hin : widthBytes - index / 8 ≤ i
      · rw [if_pos (by omega), shiftedOctet_of_le (by omega)]
      · rw [if_neg (by omega), shiftedOctet, if_neg hbit]
        by_cases hlast : widthBytes - index / 8 - 1 = i
        · -- The last octet that is moved has no carry.
          have hsource : i + index / 8 = widthBytes - 1 := by omega
          have hkept := octet_congr ((hcarry (widthBytes - 1)).trans (if_neg (by omega)))
          have hend : octet x (i + index / 8 + 1) = 0 := octet_of_le (by omega)
          rw [hkept, hlast, List.getElem?_set_self (by rw [Lib.length_forLoop]; omega), hend, hsource]
          simp only [BitVec.ofNat_eq_ofNat, BitVec.zero_shiftLeft, BitVec.xor_zero]
        · rw [List.getElem?_set_ne hlast, hcarry i, if_pos (by omega)]

end Octets

section Bits

variable {x : Bitmap}

/-- A bit beyond the array is clear. -/
theorem getBit_of_le {i : Nat} (h : x.length ≤ i / 8) : bitmapGetBit x i = false := by
  rw [bitmapGetBit, octet_of_le h]
  simp only [BitVec.ofNat_eq_ofNat, BitVec.getLsbD_zero]

/-- The shift moves bit `i + d` to bit `i`. -/
theorem getBit_leftShift {widthBytes : Nat} (hlen : x.length = widthBytes) (d : Nat) {i : Nat}
    (hi : i < widthBytes * 8) :
    bitmapGetBit (bitmapLeftShift x widthBytes d) i = bitmapGetBit x (i + d) := by
  rw [bitmapGetBit, octet_leftShift hlen d (by omega), shiftedOctet, bitmapGetBit,
    BitVec.getLsbD_xor, BitVec.getLsbD_ushiftRight]
  by_cases hbit : d % 8 = 0
  · have hplace : (i + d) / 8 = i / 8 + d / 8 := by omega
    have hsame : (i + d) % 8 = i % 8 := by omega
    rw [if_pos hbit, hplace, hsame, hbit, Nat.zero_add]
    simp only [BitVec.ofNat_eq_ofNat, BitVec.getLsbD_zero, Bool.xor_false]
  · rw [if_neg hbit, BitVec.getLsbD_shiftLeft]
    by_cases hcarry : d % 8 + i % 8 < 8
    · -- The bit comes from the octet itself.
      have hplace : (i + d) / 8 = i / 8 + d / 8 := by omega
      have hsame : (i + d) % 8 = d % 8 + i % 8 := by omega
      rw [hplace, hsame, decide_eq_true (show i % 8 < 8 - d % 8 by omega)]
      simp only [Bool.not_true, Bool.and_false, Bool.false_and, Bool.xor_false]
    · -- It comes from the next one.
      have hplace : (i + d) / 8 = i / 8 + d / 8 + 1 := by omega
      have hsame : (i + d) % 8 = i % 8 - (8 - d % 8) := by omega
      rw [hplace, hsame, BitVec.getLsbD_of_ge _ _ (Nat.not_lt.mp hcarry),
        decide_eq_true (show i % 8 < 8 by omega),
        decide_eq_false (show ¬ i % 8 < 8 - d % 8 by omega)]
      simp only [Bool.not_false, Bool.and_true, Bool.true_and, Bool.false_xor]

theorem length_leftShift (widthBytes d : Nat) :
    (bitmapLeftShift x widthBytes d).length = x.length := by
  rw [bitmapLeftShift]
  by_cases hfar : d > widthBytes * 8
  · rw [if_pos hfar, Lib.length_forLoop]
  · rw [if_neg hfar, Lib.length_forLoop]
    by_cases hbit : d % 8 = 0
    · simp only [if_pos hbit, Lib.length_forLoop]
    · simp only [if_neg hbit, List.length_set, Lib.length_forLoop]

/-- Setting a bit sets that bit. -/
theorem getBit_setBit {i j : Nat} (hi : i / 8 < x.length) :
    bitmapGetBit (bitmapSetBit x i) j = (bitmapGetBit x j || decide (j = i)) := by
  rw [bitmapGetBit, bitmapSetBit, bitmapGetBit]
  by_cases hoctet : j / 8 = i / 8
  · have hset : octet (x.set (i / 8) (octet x (i / 8) ||| BitVec.twoPow 8 (i % 8))) (j / 8) =
        octet x (i / 8) ||| BitVec.twoPow 8 (i % 8) := by
      apply octet_of_getElem?
      rw [hoctet, List.getElem?_set_self hi]
    rw [hset, BitVec.getLsbD_or, BitVec.getLsbD_twoPow, hoctet]
    congr 1
    by_cases heq : j = i
    · rw [heq, decide_eq_true (show i % 8 < 8 by omega), decide_eq_true rfl, decide_eq_true rfl]
      rfl
    · have hne : ¬ i % 8 = j % 8 := by omega
      rw [decide_eq_false hne, decide_eq_false heq, Bool.and_false]
  · have hset : octet (x.set (i / 8) (octet x (i / 8) ||| BitVec.twoPow 8 (i % 8))) (j / 8) =
        octet x (j / 8) := by
      apply octet_congr
      rw [List.getElem?_set_ne (fun h => hoctet h.symm)]
    have hne : ¬ j = i := fun h => hoctet (by rw [h])
    rw [hset, decide_eq_false hne, Bool.or_false]

end Bits

/-- `zrtp_srtp_rp_t`. -/
structure ReplayOctets where
  seq : Nat
  window : Bitmap
  deriving DecidableEq

namespace ReplayOctets

/-- A zeroed node. -/
def init : ReplayOctets := ⟨0, List.replicate windowWidthBytes 0⟩

/-- `int32_t delta = packet->seq - srtp_rp->seq`. -/
def delta (rp : ReplayOctets) (seq : Nat) : Int := Int.bmod (seq - rp.seq) (2 ^ 32)

/-- `zrtp_srtp_rp_check`. -/
def check (rp : ReplayOctets) (seq : Nat) : ZrtpStatus :=
  if rp.delta seq > 0 then .ok
  else if (windowWidth : Int) - 1 + rp.delta seq < 0 then .oldPkt
  else if bitmapGetBit rp.window ((windowWidth : Int) - 1 + rp.delta seq).toNat then .fail
  else .ok

/-- `zrtp_srtp_rp_add`. -/
def add (rp : ReplayOctets) (seq : Nat) : ReplayOctets :=
  if rp.delta seq > 0 then
    { seq := seq
      window := bitmapSetBit
        (bitmapLeftShift rp.window windowWidthBytes (rp.delta seq).toNat) (windowWidth - 1) }
  else
    { rp with
      window := bitmapSetBit rp.window ((windowWidth : Int) - 1 + rp.delta seq).toNat }

/-- The check of a packet, and the addition of one that is good. -/
def receive (rp : ReplayOctets) (seq : Nat) : Bool × ReplayOctets :=
  if rp.check seq = .ok then (true, rp.add seq) else (false, rp)

/-- A run over these indices: the ones that were accepted, the last first, and
    the node. -/
def run (seqs : List Nat) : List Nat × ReplayOctets :=
  seqs.foldl (fun state seq =>
    let received := state.2.receive seq
    (if received.1 then seq :: state.1 else state.1, received.2)) ([], init)

/-- The octets are those of a number. -/
structure Represents (rp : ReplayOctets) (number : ReplayProtection) : Prop where
  seq : rp.seq = number.seq
  octets : rp.window.length = windowWidthBytes
  bits : ∀ i < windowWidth, bitmapGetBit rp.window i = number.window.getLsbD i

theorem represents_init : init.Represents .init := by
  refine ⟨rfl, List.length_replicate, ?_⟩
  intro i hi
  have hzero : octet init.window (i / 8) = 0 := by
    apply octet_of_getElem?
    rw [init, List.getElem?_replicate_of_lt (by simp only [windowWidth, windowWidthBytes] at *; omega)]
  rw [bitmapGetBit, hzero, ReplayProtection.getLsbD_init]
  simp only [BitVec.ofNat_eq_ofNat, BitVec.getLsbD_zero]

section

variable {rp : ReplayOctets} {number : ReplayProtection}

theorem delta_eq (h : rp.Represents number) (seq : Nat) : rp.delta seq = number.delta seq := by
  rw [delta, ReplayProtection.delta, h.seq]

/-- A bit that is not above the top is in the array. -/
theorem position_lt (rp : ReplayOctets) {seq : Nat} (hpos : ¬ rp.delta seq > 0) :
    ((windowWidth : Int) - 1 + rp.delta seq).toNat < windowWidth := by
  simp only [windowWidth]
  omega

theorem check_eq (h : rp.Represents number) (seq : Nat) : rp.check seq = number.check seq := by
  rw [check, ReplayProtection.check, ReplayProtection.position, ← delta_eq h]
  by_cases hpos : rp.delta seq > 0
  · rw [if_pos hpos, if_pos hpos]
  · rw [if_neg hpos, if_neg hpos, h.bits _ (position_lt rp hpos)]

/-- Adding an index to the octets adds it to the number. -/
theorem represents_add (h : rp.Represents number) (seq : Nat) :
    (rp.add seq).Represents (number.add seq) := by
  have hlen : ∀ (x : Bitmap) (i : Nat), x.length = windowWidthBytes → i < windowWidth →
      i / 8 < x.length := by
    intro x i hx hi
    simp only [windowWidth, windowWidthBytes] at hx hi
    omega
  rw [add, ReplayProtection.add, ReplayProtection.position, ← delta_eq h]
  by_cases hpos : rp.delta seq > 0
  · rw [if_pos hpos, if_pos hpos]
    have hshifted : (bitmapLeftShift rp.window windowWidthBytes (rp.delta seq).toNat).length =
        windowWidthBytes := (length_leftShift _ _).trans h.octets
    refine ⟨rfl, by rw [bitmapSetBit, List.length_set, hshifted], ?_⟩
    intro i hi
    rw [getBit_setBit (hlen _ _ hshifted (by decide)), ReplayProtection.getLsbD_setBit _ _ _ hi,
      BitVec.getLsbD_ushiftRight, getBit_leftShift h.octets _ hi, Nat.add_comm i]
    congr 1
    by_cases hin : (rp.delta seq).toNat + i < windowWidth
    · exact h.bits _ hin
    · -- What comes in from beyond the window is clear.
      rw [BitVec.getLsbD_of_ge _ _ (Nat.not_lt.mp hin)]
      apply getBit_of_le
      rw [h.octets]
      simp only [windowWidth, windowWidthBytes] at *
      omega
  · rw [if_neg hpos, if_neg hpos]
    have hplace := position_lt rp hpos
    refine ⟨h.seq, by rw [bitmapSetBit, List.length_set, h.octets], ?_⟩
    intro i hi
    rw [getBit_setBit (hlen _ _ h.octets hplace), ReplayProtection.getLsbD_setBit _ _ _ hi,
      h.bits i hi]

end

/-- The same run over the number: what was accepted, the last first, and the number. -/
def numberRun (seqs : List Nat) : List Nat × ReplayProtection :=
  seqs.foldl (fun state seq =>
    if state.2.check seq = .ok then (seq :: state.1, state.2.add seq) else state) ([], .init)

/-- Shifting octets in place is shifting the number: whatever comes in whatever order, and however
    often an index wraps around, the same packets are accepted. -/
theorem run_refines (seqs : List Nat) :
    (run seqs).1 = (numberRun seqs).1 ∧ (run seqs).2.Represents (numberRun seqs).2 := by
  induction seqs using List.reverseRecOn with
  | nil => exact ⟨rfl, represents_init⟩
  | append_singleton seqs seq ih =>
      rcases ih with ⟨haccepted, hrep⟩
      rw [run, numberRun, List.foldl_concat, List.foldl_concat, ← run, ← numberRun]
      have hcheck := check_eq hrep seq
      by_cases hgood : (run seqs).2.check seq = .ok
      · have hreceive : (run seqs).2.receive seq = (true, (run seqs).2.add seq) := if_pos hgood
        simp only [hreceive, if_true]
        rw [if_pos (hcheck.symm.trans hgood)]
        exact ⟨congrArg (seq :: ·) haccepted, represents_add hrep seq⟩
      · have hreceive : (run seqs).2.receive seq = (false, (run seqs).2) := if_neg hgood
        simp only [hreceive, Bool.false_eq_true, if_false]
        rw [if_neg fun heq => hgood (hcheck.trans heq)]
        exact ⟨haccepted, hrep⟩

/-- The node after some indices have been accepted: its bits are theirs, and
    it has the highest of them. -/
structure Exact (accepted : List Nat) (rp : ReplayOctets) : Prop where
  octets : rp.window.length = windowWidthBytes
  tracks : Tracks windowWidth rp.seq (bitmapGetBit rp.window) {a | a ∈ accepted}
  top : accepted = [] ∧ rp.seq = 0 ∨ rp.seq ∈ accepted
  once : accepted.Nodup
  bound : rp.seq < 2 ^ 31

theorem exact_init : Exact [] init := by
  refine ⟨List.length_replicate, ?_, Or.inl ⟨rfl, rfl⟩, List.nodup_nil, by decide⟩
  have hempty : {a : Nat | a ∈ ([] : List Nat)} = ∅ := by
    ext a
    simp only [List.not_mem_nil, Set.mem_ofPred_eq, Set.mem_empty_iff_false]
  rw [hempty]
  apply Tracks.empty
  intro i hi
  rw [represents_init.bits i hi, ReplayProtection.getLsbD_init]

section

variable {accepted : List Nat} {rp : ReplayOctets} {seq : Nat}

/-- Below 2^31 the signed distance in 32 bits is the distance. -/
theorem delta_of_lt (hrp : rp.seq < 2 ^ 31) (hseq : seq < 2 ^ 31) :
    rp.delta seq = (seq : Int) - rp.seq := by
  rw [delta]
  apply Int.bmod_eq_of_le_mul_two
  · omega
  · omega

/-- An index is good if it is new and not too far below the top. -/
theorem check_iff (h : Exact accepted rp) (hseq : seq < 2 ^ 31) :
    rp.check seq = .ok ↔ seq ∉ accepted ∧ rp.seq < seq + windowWidth := by
  rw [check, delta_of_lt h.bound hseq]
  by_cases hpos : (seq : Int) - rp.seq > 0
  · rw [if_pos hpos]
    constructor
    · intro _
      exact ⟨h.tracks.fresh_above (by omega), by omega⟩
    · intro _
      rfl
  · rw [if_neg hpos]
    by_cases hold : (windowWidth : Int) - 1 + ((seq : Int) - rp.seq) < 0
    · rw [if_pos hold]
      constructor
      · intro h
        exact absurd h (by simp only [reduceCtorEq, not_false_eq_true])
      · intro h
        omega
    · have hplace : ((windowWidth : Int) - 1 + ((seq : Int) - rp.seq)).toNat =
          place windowWidth rp.seq seq := by
        simp only [place]
        omega
      have hle : seq ≤ rp.seq := by omega
      have hwindow : rp.seq < seq + windowWidth := by omega
      have hbit := h.tracks.place_iff hle hwindow
      rw [if_neg hold, hplace]
      by_cases hmem : seq ∈ accepted
      · rw [if_pos (hbit.mpr hmem)]
        constructor
        · intro h
          exact absurd h (by simp only [reduceCtorEq, not_false_eq_true])
        · intro h
          exact absurd hmem h.1
      · rw [if_neg (fun hset => hmem (hbit.mp hset))]
        constructor
        · intro _
          exact ⟨hmem, hwindow⟩
        · intro _
          rfl

/-- The step: a good index is marked. -/
theorem exact_add (h : Exact accepted rp) (hseq : seq < 2 ^ 31) (hgood : rp.check seq = .ok) :
    Exact (seq :: accepted) (rp.add seq) := by
  obtain ⟨hnew, hwindow⟩ := (check_iff h hseq).mp hgood
  have hset : {a | a ∈ seq :: accepted} = insert seq {a | a ∈ accepted} := by
    ext a
    simp only [List.mem_cons, Set.mem_ofPred_eq, Set.mem_insert_iff]
  have honce := List.nodup_cons.mpr ⟨hnew, h.once⟩
  have hoctets : ∀ i, i < windowWidth → i / 8 < windowWidthBytes := by
    intro i hi
    simp only [windowWidth, windowWidthBytes] at *
    omega
  rw [add, delta_of_lt h.bound hseq]
  by_cases hpos : (seq : Int) - rp.seq > 0
  · -- The window moves up to the index.
    have htop : rp.seq + (seq - rp.seq) = seq := by omega
    have hshift : ((seq : Int) - rp.seq).toNat = seq - rp.seq := by omega
    have hlen := (length_leftShift (x := rp.window) windowWidthBytes (seq - rp.seq)).trans h.octets
    rw [if_pos hpos, hshift]
    refine ⟨by rw [bitmapSetBit, List.length_set, hlen], ?_, Or.inr List.mem_cons_self, honce, hseq⟩
    rw [hset]
    have hbit : ∀ i < windowWidth, bitmapGetBit (bitmapSetBit
        (bitmapLeftShift rp.window windowWidthBytes (seq - rp.seq)) (windowWidth - 1)) i =
          (decide (i + (seq - rp.seq) < windowWidth) && bitmapGetBit rp.window (i + (seq - rp.seq)) ||
            decide (i = windowWidth - 1)) := by
      intro i hi
      rw [getBit_setBit (by rw [hlen]; decide), getBit_leftShift h.octets _ hi]
      congr 1
      by_cases hin : i + (seq - rp.seq) < windowWidth
      · rw [decide_eq_true hin, Bool.true_and]
      · rw [decide_eq_false hin, Bool.false_and]
        apply getBit_of_le
        rw [h.octets]
        simp only [windowWidth, windowWidthBytes] at *
        omega
    have hmove := h.tracks.advance (by decide : 0 < windowWidth) (by omega : 0 < seq - rp.seq) hbit
    rwa [htop] at hmove
  · -- The index has its bit in the window.
    have hplace : ((windowWidth : Int) - 1 + ((seq : Int) - rp.seq)).toNat =
        place windowWidth rp.seq seq := by
      simp only [place]
      omega
    have hle : seq ≤ rp.seq := by omega
    have hin : place windowWidth rp.seq seq < windowWidth := by
      simp only [place]
      omega
    rw [if_neg hpos, hplace]
    refine ⟨by rw [bitmapSetBit, List.length_set, h.octets], ?_, ?_, honce, h.bound⟩
    · rw [hset]
      exact h.tracks.mark hle hwindow (fun i _ => getBit_setBit (by rw [h.octets]; exact hoctets _ hin))
    · rcases h.top with ⟨hnil, hzero⟩ | hmem
      · refine Or.inr ?_
        have hsame : seq = rp.seq := by omega
        rw [hsame]
        exact List.mem_cons_self
      · exact Or.inr (List.mem_cons_of_mem seq hmem)

end

/-- The run: every node on the way is exact. -/
theorem exact_run (seqs : List Nat) (hseqs : ∀ seq ∈ seqs, seq < 2 ^ 31) :
    Exact (run seqs).1 (run seqs).2 := by
  have hall : ∀ (state : List Nat × ReplayOctets), Exact state.1 state.2 →
      Exact (seqs.foldl (fun state seq =>
        let received := state.2.receive seq
        (if received.1 then seq :: state.1 else state.1, received.2)) state).1
      (seqs.foldl (fun state seq =>
        let received := state.2.receive seq
        (if received.1 then seq :: state.1 else state.1, received.2)) state).2 := by
    induction seqs with
    | nil =>
        intro state h
        exact h
    | cons seq seqs ih =>
        intro state h
        obtain ⟨hseq, hrest⟩ := List.forall_mem_cons.mp hseqs
        rw [List.foldl_cons]
        apply ih hrest
        by_cases hgood : state.2.check seq = .ok
        · simp only [receive, if_pos hgood, if_true]
          exact exact_add h hseq hgood
        · simp only [receive, if_neg hgood, Bool.false_eq_true, if_false]
          exact h
  exact hall ([], init) exact_init

/-- Over a run of indices below 2^31, no index is accepted twice, the node has
    the highest of those that were, and an index is rejected exactly when it was
    accepted before or is too far below that one. -/
theorem replay_window_exact (seqs : List Nat) (hseqs : ∀ seq ∈ seqs, seq < 2 ^ 31) :
    (run seqs).1.Nodup ∧
      ((run seqs).1 ≠ [] → IsGreatest {a | a ∈ (run seqs).1} (run seqs).2.seq) ∧
      ∀ seq < 2 ^ 31, (run seqs).2.check seq ≠ .ok ↔
        seq ∈ (run seqs).1 ∨ seq + windowWidth ≤ (run seqs).2.seq := by
  have h := exact_run seqs hseqs
  refine ⟨h.once, ?_, ?_⟩
  · intro hne
    refine ⟨?_, fun a ha => h.tracks.le_top a ha⟩
    rcases h.top with ⟨hnil, _⟩ | hmem
    · exact absurd hnil hne
    · exact hmem
  · intro seq hseq
    rw [ne_eq, check_iff h hseq, not_and_or, not_not, Nat.not_lt]

/-- Late packets, a repeated one, and a jump past the window. -/
theorem replay_window_exact_some :
    (run [5, 3, 5, 200, 71, 72]).1.Nodup ∧
      ((run [5, 3, 5, 200, 71, 72]).1 ≠ [] →
        IsGreatest {a | a ∈ (run [5, 3, 5, 200, 71, 72]).1} (run [5, 3, 5, 200, 71, 72]).2.seq) ∧
      ∀ seq < 2 ^ 31, (run [5, 3, 5, 200, 71, 72]).2.check seq ≠ .ok ↔
        seq ∈ (run [5, 3, 5, 200, 71, 72]).1 ∨
          seq + windowWidth ≤ (run [5, 3, 5, 200, 71, 72]).2.seq :=
  replay_window_exact [5, 3, 5, 200, 71, 72] (by decide)

end ReplayOctets

end Zrtp

end CryptoOpal

import CryptoOpal.Lib.KeyedList
import CryptoOpal.Lib.ReplayWindow
import CryptoOpal.Zrtp.Types
import Mathlib.Algebra.Group.Nat.Defs
import Mathlib.Algebra.Group.Int.Defs

/-!
# The Replay Nodes of libzrtp's SRTP

The global SRTP context keeps two lists of replay nodes, one for packets that
come in and one for packets that go out. All streams of the process share
them. A node is found by its SSRC value alone. It remembers the context that
was the first to ask for it, and it goes when that context is destroyed.

A node has two halves, one for RTP and one for RTCP. Each is a 32-bit index,
the highest so far, and a window of 128 bits below it. The distance of an
index from the top is taken in 32 bits and read as a signed number.

## Main definitions

* `ReplayProtection`: `zrtp_srtp_rp_t`.
* `ReplayProtection.check`, `ReplayProtection.add`, `ReplayProtection.increment`:
  `zrtp_srtp_rp_check`, `zrtp_srtp_rp_add`, `zrtp_srtp_rp_increment`.
* `ReplayNode`: `zrtp_rp_node_t`.
* `getNode`, `addNode`, `removeNodesOf`: The list functions.
* `halfAt`: What a packet with some SSRC value finds.

## Theorems

* `ReplayProtection.fresh_of_check`: An accepted index was not marked.
* `ReplayProtection.remembers_add`: Adding an index marks it.
* `halfAt_addNode`, `halfAt_setHalf`, `halfAt_removeNodesOf`: What a packet
  finds afterwards.
-/

namespace CryptoOpal

namespace Zrtp

open Lib (findKey replaceFirst place Remembers)

/-- `ZRTP_SRTP_WINDOW_WIDTH`. -/
def windowWidth : Nat := 128

/-- `zrtp_srtp_rp_t`. The 16 octets of the window are one number: bit `i` of
    it is bit `i & 7` of octet `i >> 3`, as `zrtp_bitmap_get_bit` counts. -/
structure ReplayProtection where
  seq : Nat
  window : BitVec windowWidth
  deriving DecidableEq

namespace ReplayProtection

/-- A cleared half of a node. -/
def init : ReplayProtection := ⟨0, 0⟩

/-- `int32_t delta = packet->seq - srtp_rp->seq`. -/
def delta (rp : ReplayProtection) (seq : Nat) : Int := Int.bmod (seq - rp.seq) (2 ^ 32)

/-- The bit of an index that is not above the top. -/
def position (rp : ReplayProtection) (seq : Nat) : Nat :=
  ((windowWidth : Int) - 1 + rp.delta seq).toNat

/-- `zrtp_srtp_rp_check`. -/
def check (rp : ReplayProtection) (seq : Nat) : ZrtpStatus :=
  if rp.delta seq > 0 then .ok
  else if (windowWidth : Int) - 1 + rp.delta seq < 0 then .oldPkt
  else if rp.window.getLsbD (rp.position seq) then .fail
  else .ok

/-- `zrtp_bitmap_set_bit`. -/
def setBit (window : BitVec windowWidth) (i : Nat) : BitVec windowWidth :=
  window ||| BitVec.twoPow windowWidth i

/-- `zrtp_srtp_rp_add`. The shift of the source moves bit `i + delta` to `i`. -/
def add (rp : ReplayProtection) (seq : Nat) : ReplayProtection :=
  if rp.delta seq > 0 then
    { seq := seq, window := setBit (rp.window >>> (rp.delta seq).toNat) (windowWidth - 1) }
  else { rp with window := setBit rp.window (rp.position seq) }

/-- `zrtp_srtp_rp_increment`. The counter moves on whether or not the key has
    expired. -/
def increment (rp : ReplayProtection) : ZrtpStatus × ReplayProtection :=
  (if rp.seq > 0x7fffffff then .keyExpired else .ok, { rp with seq := (rp.seq + 1) % 2 ^ 32 })

/-- The signed distance in 32 bits is the distance. -/
def Near (rp : ReplayProtection) (seq : Nat) : Prop :=
  seq < rp.seq + 2 ^ 31 ∧ rp.seq ≤ seq + 2 ^ 31

instance (rp : ReplayProtection) (seq : Nat) : Decidable (rp.Near seq) :=
  inferInstanceAs (Decidable (_ ∧ _))

theorem delta_of_near {rp : ReplayProtection} {seq : Nat} (h : rp.Near seq) :
    rp.delta seq = (seq : Int) - rp.seq := by
  rcases h with ⟨habove, hbelow⟩
  rw [delta]
  apply Int.bmod_eq_of_le_mul_two
  · omega
  · omega

/-- Inside the window, the bit of an index has its place. -/
theorem position_of_near {rp : ReplayProtection} {seq : Nat} (h : rp.Near seq) :
    rp.position seq = place windowWidth rp.seq seq := by
  rw [position, delta_of_near h, place, windowWidth]
  omega

/-- A clear window has no bit set. -/
theorem getLsbD_init (i : Nat) : init.window.getLsbD i = false := by
  simp only [init, BitVec.ofNat_eq_ofNat, BitVec.getLsbD_zero]

theorem getLsbD_setBit (window : BitVec windowWidth) (i j : Nat) (hj : j < windowWidth) :
    (setBit window i).getLsbD j = (window.getLsbD j || decide (j = i)) := by
  rw [setBit, BitVec.getLsbD_or, BitVec.getLsbD_twoPow]
  congr 1
  by_cases hij : j = i
  · rw [hij] at hj
    simp only [hij, hj, decide_true, Bool.and_self]
  · have hji : ¬ i = j := fun h => hij h.symm
    simp only [hij, hji, decide_false, Bool.and_false]

/-- The indices an accepted index is not among: those the node remembers. -/
theorem fresh_of_check {rp : ReplayProtection} {seq : Nat} {acc : Set Nat}
    (hrem : Remembers windowWidth rp.seq rp.window.getLsbD acc) (hnear : rp.Near seq)
    (hok : rp.check seq = .ok) : seq ∉ acc := by
  rw [check, delta_of_near hnear, position_of_near hnear] at hok
  by_cases hpos : (seq : Int) - rp.seq > 0
  · exact hrem.fresh_above (by omega)
  · rw [if_neg hpos] at hok
    by_cases hold : (windowWidth : Int) - 1 + ((seq : Int) - rp.seq) < 0
    · rw [if_pos hold] at hok
      exact absurd hok (by simp only [reduceCtorEq, not_false_eq_true])
    · rw [if_neg hold] at hok
      by_cases hbit : rp.window.getLsbD (place windowWidth rp.seq seq) = true
      · rw [if_pos hbit] at hok
        exact absurd hok (by simp only [reduceCtorEq, not_false_eq_true])
      · have hw : rp.seq < seq + windowWidth := by omega
        exact hrem.fresh hw (Bool.eq_false_iff.mpr hbit)

/-- An accepted index is marked by adding it, and nothing is forgotten. -/
theorem remembers_add {rp : ReplayProtection} {seq : Nat} {acc : Set Nat}
    (hrem : Remembers windowWidth rp.seq rp.window.getLsbD acc) (hnear : rp.Near seq) :
    Remembers windowWidth (rp.add seq).seq (rp.add seq).window.getLsbD (insert seq acc) := by
  rw [add, delta_of_near hnear, position_of_near hnear]
  by_cases hpos : (seq : Int) - rp.seq > 0
  · rw [if_pos hpos]
    have htop : rp.seq + (seq - rp.seq) = seq := by omega
    have hshift : ((seq : Int) - rp.seq).toNat = seq - rp.seq := by omega
    have hbit : ∀ i < windowWidth,
        (setBit (rp.window >>> (seq - rp.seq)) (windowWidth - 1)).getLsbD i =
          (decide (i + (seq - rp.seq) < windowWidth) && rp.window.getLsbD (i + (seq - rp.seq)) ||
            decide (i = windowWidth - 1)) := by
      intro i hi
      rw [getLsbD_setBit _ _ _ hi, BitVec.getLsbD_ushiftRight, Nat.add_comm (seq - rp.seq) i]
      congr 1
      -- A bit from beyond the window comes in as zero on both sides.
      by_cases hin : i + (seq - rp.seq) < windowWidth
      · rw [decide_eq_true hin, Bool.true_and]
      · rw [BitVec.getLsbD_of_ge _ _ (by omega), Bool.and_false]
    have hmove := hrem.advance (by decide : 0 < windowWidth) (by omega : 0 < seq - rp.seq) hbit
    rwa [htop, ← hshift] at hmove
  · rw [if_neg hpos]
    exact hrem.mark (by omega) (fun i hi => getLsbD_setBit _ _ _ hi)

end ReplayProtection

/-- `zrtp_rp_node_t`. A context is named by the stream that has it. -/
structure ReplayNode where
  ssrc : Nat
  srtpCtx : Nat
  rtpRp : ReplayProtection
  rtcpRp : ReplayProtection
  deriving DecidableEq

/-- `get_rp_node_non_lock` on the list of one direction. -/
def getNode (nodes : List ReplayNode) (ssrc : Nat) : Option ReplayNode :=
  findKey ReplayNode.ssrc nodes ssrc

/-- The node `add_rp_node_ex` allocates. -/
def newNode (srtpCtx ssrc : Nat) : ReplayNode := ⟨ssrc, srtpCtx, .init, .init⟩

/-- `add_rp_node`: the node with this SSRC value, and the list with it. -/
def addNode (srtpCtx ssrc : Nat) (nodes : List ReplayNode) : ReplayNode × List ReplayNode :=
  match getNode nodes ssrc with
  | some node => (node, nodes)
  | none => (newNode srtpCtx ssrc, nodes ++ [newNode srtpCtx ssrc])

/-- `remove_rp_nodes_by_srtp_ctx` on the list of one direction. -/
def removeNodesOf (srtpCtx : Nat) (nodes : List ReplayNode) : List ReplayNode :=
  nodes.filter fun node => node.srtpCtx != srtpCtx

/-- Write back a node that was changed in place. -/
def updateNode (node : ReplayNode) (nodes : List ReplayNode) : List ReplayNode :=
  replaceFirst ReplayNode.ssrc node nodes

/-- No two nodes of a list have one SSRC value. -/
def Distinct (nodes : List ReplayNode) : Prop := (nodes.map ReplayNode.ssrc).Nodup

instance (nodes : List ReplayNode) : Decidable (Distinct nodes) :=
  inferInstanceAs (Decidable (List.Nodup _))

section

variable {nodes : List ReplayNode} {node : ReplayNode} {srtpCtx ssrc : Nat}

/-- The node that is found or allocated has the SSRC value asked for. -/
theorem addNode_ssrc : (addNode srtpCtx ssrc nodes).1.ssrc = ssrc := by
  rw [addNode]
  cases h : getNode nodes ssrc with
  | none => rfl
  | some found => exact Lib.key_of_findKey h

/-- A node that is not there yet has two clear halves. -/
theorem addNode_fst :
    (addNode srtpCtx ssrc nodes).1 = (getNode nodes ssrc).getD (newNode srtpCtx ssrc) := by
  rw [addNode]
  cases getNode nodes ssrc with
  | none => rfl
  | some found => rfl

/-- Asking for a node changes no search but the one for it. -/
theorem getNode_addNode (k : Nat) :
    getNode (addNode srtpCtx ssrc nodes).2 k =
      if ssrc = k then some (addNode srtpCtx ssrc nodes).1 else getNode nodes k := by
  rw [addNode]
  cases h : getNode nodes ssrc with
  | some found =>
      by_cases hk : ssrc = k
      · rw [if_pos hk, ← hk]
        exact h
      · rw [if_neg hk]
  | none =>
      rw [getNode, Lib.findKey_append]
      by_cases hk : ssrc = k
      · rw [if_pos hk, ← hk, show findKey ReplayNode.ssrc nodes ssrc = none from h, Option.none_or,
          Lib.findKey_cons, if_pos (show (newNode srtpCtx ssrc).ssrc = ssrc from rfl)]
      · rw [if_neg hk, Lib.findKey_cons, if_neg (show ¬ (newNode srtpCtx ssrc).ssrc = k from hk),
          findKey, Option.or_none, getNode]

/-- A node that is there is changed, and no other. -/
theorem getNode_updateNode (k : Nat) :
    getNode (updateNode node nodes) k =
      if node.ssrc = k then (getNode nodes k).map fun _ => node else getNode nodes k :=
  Lib.findKey_replaceFirst k

/-- The node of the packet is changed, and no other. -/
theorem getNode_updateNode_addNode (k : Nat) (h : node.ssrc = ssrc) :
    getNode (updateNode node (addNode srtpCtx ssrc nodes).2) k =
      if ssrc = k then some node else getNode nodes k := by
  rw [getNode_updateNode, getNode_addNode, h]
  by_cases hk : ssrc = k
  · rw [if_pos hk, if_pos hk, if_pos hk, Option.map_some]
  · rw [if_neg hk, if_neg hk, if_neg hk]

theorem getNode_removeNodesOf (hdistinct : Distinct nodes) (k : Nat) :
    getNode (removeNodesOf srtpCtx nodes) k =
      (getNode nodes k).filter fun found => found.srtpCtx != srtpCtx :=
  Lib.findKey_filter _ hdistinct

theorem distinct_addNode (hdistinct : Distinct nodes) :
    Distinct (addNode srtpCtx ssrc nodes).2 := by
  rw [addNode]
  cases h : getNode nodes ssrc with
  | some found => exact hdistinct
  | none =>
      have hnew : ssrc ∉ nodes.map ReplayNode.ssrc := Lib.findKey_eq_none.mp h
      rw [Distinct, List.map_append, List.map_singleton]
      exact hdistinct.append (List.nodup_singleton _) (List.disjoint_singleton.mpr hnew)

theorem distinct_updateNode (hdistinct : Distinct nodes) : Distinct (updateNode node nodes) := by
  rw [Distinct, updateNode, Lib.map_replaceFirst]
  exact hdistinct

theorem distinct_removeNodesOf (hdistinct : Distinct nodes) :
    Distinct (removeNodesOf srtpCtx nodes) :=
  (List.filter_sublist.map ReplayNode.ssrc).nodup hdistinct

/-- The two halves of a node. -/
inductive Half where
  | rtp
  | rtcp
  deriving DecidableEq

/-- Read a half. -/
def ReplayNode.half (node : ReplayNode) : Half → ReplayProtection
  | .rtp => node.rtpRp
  | .rtcp => node.rtcpRp

/-- Write a half. -/
def ReplayNode.setHalf (node : ReplayNode) (rp : ReplayProtection) : Half → ReplayNode
  | .rtp => { node with rtpRp := rp }
  | .rtcp => { node with rtcpRp := rp }

/-- What a packet with this SSRC value finds in its half: that of the node, or
    of the node it would get. -/
def halfAt (half : Half) (nodes : List ReplayNode) (ssrc : Nat) : ReplayProtection :=
  ((getNode nodes ssrc).getD (newNode 0 ssrc)).half half

/-- The context that the node with this SSRC value remembers. -/
def ownerAt (nodes : List ReplayNode) (ssrc : Nat) : Option Nat :=
  (getNode nodes ssrc).map ReplayNode.srtpCtx

theorem half_newNode (half : Half) (srtpCtx ssrc : Nat) :
    (newNode srtpCtx ssrc).half half = .init := by
  cases half with
  | rtp => rfl
  | rtcp => rfl

theorem setHalf_ssrc (node : ReplayNode) (rp : ReplayProtection) (half : Half) :
    (node.setHalf rp half).ssrc = node.ssrc := by
  cases half with
  | rtp => rfl
  | rtcp => rfl

theorem half_setHalf (node : ReplayNode) (rp : ReplayProtection) (half half' : Half) :
    (node.setHalf rp half).half half' = if half = half' then rp else node.half half' := by
  cases half with
  | rtp =>
      cases half' with
      | rtp => rfl
      | rtcp => rfl
  | rtcp =>
      cases half' with
      | rtp => rfl
      | rtcp => rfl

theorem halfAt_of_getNode {half : Half} (h : getNode nodes ssrc = some node) :
    halfAt half nodes ssrc = node.half half := by
  rw [halfAt, h, Option.getD_some]

theorem halfAt_of_none {half : Half} (h : getNode nodes ssrc = none) :
    halfAt half nodes ssrc = .init := by
  rw [halfAt, h, Option.getD_none, half_newNode]

/-- The node that is found or allocated has the halves that were there. -/
theorem half_addNode (half : Half) :
    (addNode srtpCtx ssrc nodes).1.half half = halfAt half nodes ssrc := by
  rw [addNode_fst, halfAt]
  cases getNode nodes ssrc with
  | some found => rfl
  | none => rw [Option.getD_none, Option.getD_none, half_newNode, half_newNode]

/-- Asking for a node changes nothing that a packet can find. -/
theorem halfAt_addNode (half : Half) (k : Nat) :
    halfAt half (addNode srtpCtx ssrc nodes).2 k = halfAt half nodes k := by
  by_cases hk : ssrc = k
  · rw [halfAt_of_getNode (by rw [getNode_addNode, if_pos hk]), half_addNode, hk]
  · rw [halfAt, halfAt, getNode_addNode, if_neg hk]

/-- Writing a half is seen by the packets that have the SSRC value and use the
    half, and by no others. -/
theorem halfAt_setHalf (half half' : Half) (rp : ReplayProtection) (k : Nat) :
    halfAt half' (updateNode ((addNode srtpCtx ssrc nodes).1.setHalf rp half)
        (addNode srtpCtx ssrc nodes).2) k =
      if ssrc = k ∧ half = half' then rp else halfAt half' nodes k := by
  have hssrc : ((addNode srtpCtx ssrc nodes).1.setHalf rp half).ssrc = ssrc := by
    rw [setHalf_ssrc, addNode_ssrc]
  by_cases hk : ssrc = k
  · rw [halfAt_of_getNode (by rw [getNode_updateNode_addNode k hssrc, if_pos hk]), half_setHalf,
      half_addNode, hk]
    simp only [true_and]
  · rw [if_neg fun hboth => hk hboth.1, halfAt, halfAt, getNode_updateNode_addNode k hssrc,
      if_neg hk]

/-- When a context goes, the nodes it owns are as good as new. -/
theorem halfAt_removeNodesOf (hdistinct : Distinct nodes) (half : Half) (k : Nat) :
    halfAt half (removeNodesOf srtpCtx nodes) k =
      if ownerAt nodes k = some srtpCtx then .init else halfAt half nodes k := by
  have hfind := @getNode_removeNodesOf nodes srtpCtx hdistinct k
  rw [ownerAt]
  cases hnode : getNode nodes k with
  | none =>
      rw [hnode, Option.filter_none] at hfind
      rw [halfAt_of_none hfind, Option.map_none, if_neg (by simp only [reduceCtorEq, not_false_eq_true]),
        halfAt_of_none hnode]
  | some found =>
      rw [hnode, Option.filter_some] at hfind
      simp only [Option.map_some, Option.some.injEq]
      by_cases howner : found.srtpCtx = srtpCtx
      · rw [if_neg (by simp only [howner, bne_self_eq_false, Bool.false_eq_true, not_false_eq_true])]
          at hfind
        rw [if_pos howner, halfAt_of_none hfind]
      · rw [if_pos (bne_iff_ne.mpr howner)] at hfind
        rw [if_neg howner, halfAt_of_getNode hfind, halfAt_of_getNode hnode]

end

end Zrtp

end CryptoOpal

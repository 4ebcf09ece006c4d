import CryptoOpal.Srtp.Rdbx
import CryptoOpal.Lib.Transducer

/-!
# The Replay Law of the Database

What `srtp_unprotect` does with its replay database, packet after packet:
estimate the index, check the distance, and add it when the check passes.
`receive` is that sequence of three calls, and a run of it is a run over the
sequence numbers of the packets that arrive.

The law says what the database is for. Nothing is accepted twice, the stored
index is the highest one accepted, and the check refuses nothing it should
not: it passes exactly when the index is above the stored one, or inside the
window and not accepted before. It holds from `srtp_rdbx_init` on, for every
window the library admits, as long as the stored index stays within its 48
bits.

`History` is the invariant. It says that the bits are exactly the indices
accepted so far, which is a fact about the run and not about the database
alone.

## Main definitions

* `Rdbx.receive`: One packet.
* `Rdbx.Bounded`: The packet leaves the stored index within 48 bits.
* `Rdbx.accepted`, `Rdbx.after`: The indices accepted in a run, and its end.
* `Rdbx.History`: The database against the indices accepted so far.

## Theorems

* `Rdbx.history_receive`: One packet keeps the invariant.
* `Rdbx.check_iff_of_history`: When the check passes, given the invariant.
* `replay_law`: The law, for every run.
-/

namespace CryptoOpal

namespace Srtp

namespace Rdbx

/-- The replay processing of one packet: estimate, check, add. -/
def receive (rdbx : Rdbx) (s : UInt16) : Rdbx × Except SrtpErrStatus Nat :=
  let (est, delta) := rdbx.estimateIndex s
  match rdbx.check delta with
  | .ok _ => (rdbx.addIndex delta, .ok est)
  | .error e => (rdbx, .error e)

/-- The packet leaves the stored index within its 48 bits. -/
def Bounded (rdbx : Rdbx) (s : UInt16) : Prop := (rdbx.receive s).1.index < 2 ^ 48

instance (rdbx : Rdbx) (s : UInt16) : Decidable (rdbx.Bounded s) :=
  inferInstanceAs (Decidable (_ < _))

/-- The index a step accepted, if it accepted one. -/
def acceptedAt (x : Lib.Step Rdbx UInt16 (Except SrtpErrStatus Nat)) : Option Nat :=
  x.output.toOption

/-- The indices accepted in a run, in order. -/
def accepted (rdbx : Rdbx) (seqs : List UInt16) : List Nat :=
  Lib.events receive acceptedAt rdbx seqs

/-- The database after a run. -/
def after (rdbx : Rdbx) (seqs : List UInt16) : Rdbx :=
  Lib.final receive rdbx seqs

/-- The bits are exactly the indices accepted so far, the stored index is the
    highest of them, and the window has kept its length. -/
structure History (w : Nat) (acc : List Nat) (rdbx : Rdbx) : Prop where
  tracks : rdbx.Tracks {a | a ∈ acc}
  highest : rdbx.index = acc.foldr max 0
  bound : rdbx.index < 2 ^ 48
  window : rdbx.bitmask.length = w

theorem receive_of_ok {rdbx : Rdbx} {s : UInt16}
    (h : rdbx.check (rdbx.estimateIndex s).2 = .ok ()) :
    rdbx.receive s =
      (rdbx.addIndex (rdbx.estimateIndex s).2, .ok (rdbx.estimateIndex s).1) := by
  simp only [receive, h]

theorem receive_of_error {rdbx : Rdbx} {s : UInt16} {e : SrtpErrStatus}
    (h : rdbx.check (rdbx.estimateIndex s).2 = .error e) :
    rdbx.receive s = (rdbx, .error e) := by
  simp only [receive, h]

/-- While the stored index stays within 48 bits, so does the estimate, and the
    estimate is the stored index plus the distance. -/
theorem estimate_of_bounded {rdbx : Rdbx} {s : UInt16} (hlt : rdbx.index < 2 ^ 48)
    (hb : rdbx.Bounded s) :
    ((rdbx.estimateIndex s).1 : Int) = rdbx.index + (rdbx.estimateIndex s).2 := by
  refine estimateIndex_eq rdbx s ?_
  have hrange := estimateIndex_range rdbx s
  by_cases hd : (rdbx.estimateIndex s).2 > 0
  · -- A packet ahead of the stored index is always added, and moves it.
    have hcheck : rdbx.check (rdbx.estimateIndex s).2 = .ok () :=
      (check_ok_iff _ _).mpr (Or.inl hd)
    rw [Bounded, receive_of_ok hcheck] at hb
    simp only [addIndex, if_pos hd, indexAdvance] at hb
    omega
  · omega

theorem foldr_max_append (acc : List Nat) (a : Nat) :
    (acc ++ [a]).foldr max 0 = max (acc.foldr max 0) a := by
  induction acc with
  | nil => simp only [List.nil_append, List.foldr_cons, List.foldr_nil, Nat.max_comm]
  | cons b bs ih => simp only [List.cons_append, List.foldr_cons, ih, Nat.max_assoc]

/-- One packet keeps the database in step with what has been accepted. -/
theorem history_receive {w : Nat} (acc : List Nat) (rdbx : Rdbx) (s : UInt16)
    (h : History w acc rdbx) (hb : rdbx.Bounded s) :
    History w (acc ++ (acceptedAt (Lib.stepAt receive rdbx s)).toList) (rdbx.receive s).1 := by
  have hest := estimate_of_bounded h.bound hb
  have hrange := estimateIndex_range rdbx s
  cases hcheck : rdbx.check (rdbx.estimateIndex s).2 with
  | error e =>
      simp only [Lib.stepAt, acceptedAt, receive_of_error hcheck, Except.toOption,
        Option.toList_none, List.append_nil]
      exact h
  | ok u =>
      have hwin := window_of_check hcheck
      have hlt := estimateIndex_lt rdbx s
      simp only [Lib.stepAt, acceptedAt, receive_of_ok hcheck, Except.toOption,
        Option.toList_some]
      refine ⟨?_, ?_, ?_, ?_⟩
      · have hset : {a | a ∈ acc ++ [(rdbx.estimateIndex s).1]} =
            insert (rdbx.estimateIndex s).1 {a | a ∈ acc} := by
          ext a
          simp only [List.mem_append, List.mem_singleton, Set.mem_ofPred_eq, Set.mem_insert_iff]
          exact or_comm
        rw [hset]
        exact tracks_addIndex h.tracks hest hrange.2 hlt hwin
      · rw [index_addIndex hest hrange.2 hlt, foldr_max_append, h.highest]
      · rw [index_addIndex hest hrange.2 hlt]
        exact max_lt h.bound hlt
      · rw [length_addIndex, h.window]

/-- An accepted index is a new one. -/
theorem fresh_receive {w : Nat} (acc : List Nat) (rdbx : Rdbx) (s : UInt16) (a : Nat)
    (h : History w acc rdbx) (hb : rdbx.Bounded s)
    (ha : acceptedAt (Lib.stepAt receive rdbx s) = some a) : ∀ a' ∈ acc, a' ≠ a := by
  cases hcheck : rdbx.check (rdbx.estimateIndex s).2 with
  | error e =>
      simp only [Lib.stepAt, acceptedAt, receive_of_error hcheck, Except.toOption,
        reduceCtorEq] at ha
  | ok u =>
      simp only [Lib.stepAt, acceptedAt, receive_of_ok hcheck, Except.toOption,
        Option.some.injEq] at ha
      intro a' ha' heq
      have hfresh := fresh_of_check h.tracks.toRemembers (estimate_of_bounded h.bound hb) hcheck
      rw [ha, ← heq] at hfresh
      exact hfresh ha'

/-- The check passes exactly when the index is above the stored one, or inside
    the window and not accepted so far. -/
theorem check_iff_of_history {w : Nat} {acc : List Nat} {rdbx : Rdbx} {s : UInt16}
    (h : History w acc rdbx) (hb : rdbx.Bounded s) :
    rdbx.check (rdbx.estimateIndex s).2 = .ok () ↔
      rdbx.index < (rdbx.estimateIndex s).1 ∨
        ((rdbx.estimateIndex s).1 ≤ rdbx.index ∧ rdbx.index < (rdbx.estimateIndex s).1 + w ∧
          (rdbx.estimateIndex s).1 ∉ acc) := by
  have hest := estimate_of_bounded h.bound hb
  have hlen := h.window
  have hpos := rdbx.pos
  rw [check_ok_iff]
  by_cases hd : 0 < (rdbx.estimateIndex s).2
  · exact ⟨fun _ => Or.inl (by omega), fun _ => Or.inl hd⟩
  by_cases hwin : 0 ≤ (rdbx.bitmask.length : Int) - 1 + (rdbx.estimateIndex s).2
  · have hplace := h.tracks.place_iff (a := (rdbx.estimateIndex s).1) (by omega) (by omega)
    rw [place_eq hest hwin]
    constructor
    · rintro (hpos' | ⟨-, hbit⟩)
      · exact absurd hpos' hd
      · refine Or.inr ⟨by omega, by omega, fun hmem => ?_⟩
        rw [hplace.mpr hmem] at hbit
        exact absurd hbit (by decide)
    · rintro (habove | ⟨-, -, hnot⟩)
      · omega
      · refine Or.inr ⟨hwin, ?_⟩
        rw [Bool.eq_false_iff]
        exact fun hbit => hnot (hplace.mp hbit)
  · constructor
    · rintro (hpos' | ⟨hwin', -⟩)
      · exact absurd hpos' hd
      · exact absurd hwin' hwin
    · rintro (habove | ⟨hle, hlt, -⟩)
      · omega
      · omega

/-- A new database has accepted nothing. -/
theorem history_init {ws : Nat} {rdbx : Rdbx} (h : init ws = .ok rdbx) :
    History (32 * ((ws + 31) / 32)) [] rdbx := by
  rw [init] at h
  by_cases hws : ws = 0
  · rw [dif_pos hws] at h
    exact absurd h (by simp only [reduceCtorEq, not_false_eq_true])
  · rw [dif_neg hws, Except.ok.injEq] at h
    rw [← h]
    refine ⟨?_, rfl, Nat.two_pow_pos 48, rfl⟩
    rw [show {a : Nat | a ∈ ([] : List Nat)} = ∅ by simp only [List.not_mem_nil, Set.ofPred_false]]
    exact Lib.Tracks.empty (fun i _ => Bitvector.getBit_alloc ws i)

end Rdbx

/-- The replay law. In every run from a new database whose stored index stays
    within 48 bits, no index is accepted twice, the stored index is the
    highest accepted one, and the check on a next packet passes exactly when
    its index is above the stored one, or inside the window and new. The
    window is the one asked for, rounded up to whole words. -/
theorem replay_law (ws : Nat) (rdbx : Rdbx) (hinit : Rdbx.init ws = .ok rdbx)
    (seqs : List UInt16) (hbound : Lib.Along Rdbx.receive Rdbx.Bounded rdbx seqs) :
    (rdbx.accepted seqs).Nodup ∧
      (rdbx.after seqs).index = (rdbx.accepted seqs).foldr max 0 ∧
      ∀ s est delta, (rdbx.after seqs).Bounded s →
        (rdbx.after seqs).estimateIndex s = (est, delta) →
        ((rdbx.after seqs).check delta = .ok () ↔
          (rdbx.after seqs).index < est ∨
            (est ≤ (rdbx.after seqs).index ∧
              (rdbx.after seqs).index < est + 32 * ((ws + 31) / 32) ∧
              est ∉ rdbx.accepted seqs)) := by
  have hstart := Rdbx.history_init hinit
  have hend := Lib.history_invariant (Rdbx.History _) Rdbx.history_receive [] rdbx seqs hstart
    hbound
  have hpair := Lib.events_pairwise (R := (· ≠ ·)) (Rdbx.History _) Rdbx.history_receive
    Rdbx.fresh_receive [] rdbx seqs hstart hbound List.Pairwise.nil
  rw [List.nil_append] at hend hpair
  refine ⟨hpair, hend.highest, ?_⟩
  intro s est delta hs hest
  have hiff := Rdbx.check_iff_of_history hend hs
  rw [show (Lib.final Rdbx.receive rdbx seqs).estimateIndex s = (est, delta) from hest] at hiff
  exact hiff

/-- The law at a window of 64 places, for a packet that skips ahead, one that
    comes late and a replay of each. -/
theorem replay_law_late :
    ∃ rdbx, Rdbx.init 64 = .ok rdbx ∧ (rdbx.accepted [40, 7, 40, 7]).Nodup ∧
      (rdbx.after [40, 7, 40, 7]).index = 40 := by
  refine ⟨_, rfl, ?_⟩
  have h := replay_law 64 _ rfl [40, 7, 40, 7] (by decide)
  exact ⟨h.1, h.2.1⟩

end Srtp

end CryptoOpal

import CryptoOpal.Srtp.Rdb
import CryptoOpal.Lib.ReplayWindow
import CryptoOpal.Lib.Transducer
import Mathlib.Algebra.Group.Nat.Defs

/-!
# The Replay Law of the SRTCP Database

The receiver of SRTCP asks its database about the index that a packet carries, and adds
the index when the answer is good. The database keeps the lower end of its window, and
the upper end is 127 above: the highest accepted index, once the window has moved.
Before that it has seen nothing above 127, and what is above the highest accepted index
is simply clear.

A jump far ahead shifts all bits out of the window, and a jump of less than the window
keeps some. The shift of the bit vector treats both alike, so the window only ever
advances.

## Main definitions

* `Rdb.receive`: One packet.
* `Rdb.accepted`, `Rdb.after`: The indices accepted in a run, and its end.
* `Rdb.History`: The database against the indices accepted so far.

## Theorems

* `Rdb.history_receive`: One packet keeps the invariant.
* `Rdb.refused_of_history`: What the check refuses, given the invariant.
* `srtcp_replay_law`: The law, for every run.
-/

namespace CryptoOpal

namespace Srtp

namespace Rdb

/-- The replay processing of one packet, which carries a 31-bit index. -/
def receive (rdb : Rdb) (pIndex : Fin (2 ^ 31)) : Rdb × Except SrtpErrStatus Nat :=
  (if (rdb.check pIndex).isOk then rdb.addIndex pIndex else rdb,
    (rdb.check pIndex).map (fun _ => (pIndex : Nat)))

/-- The index a step accepted, if it accepted one. -/
def acceptedAt (x : Lib.Step Rdb (Fin (2 ^ 31)) (Except SrtpErrStatus Nat)) : Option Nat :=
  x.output.toOption

/-- The indices accepted in a run, in order. -/
def accepted (rdb : Rdb) (indices : List (Fin (2 ^ 31))) : List Nat :=
  Lib.events receive acceptedAt rdb indices

/-- The database after a run. -/
def after (rdb : Rdb) (indices : List (Fin (2 ^ 31))) : Rdb :=
  Lib.final receive rdb indices

/-- The upper end of the window. -/
def top (rdb : Rdb) : Nat := rdb.windowStart + (rdbBitsInBitmask - 1)

/-- The bits are exactly the indices accepted so far, and the upper end of a window that
    has moved is one of them. -/
structure History (acc : List Nat) (rdb : Rdb) : Prop where
  tracks : Lib.Tracks rdbBitsInBitmask rdb.top rdb.bitmask.getBit {a | a ∈ acc}
  moved : rdb.windowStart = 0 ∨ rdb.top ∈ acc

theorem receive_of_ok {rdb : Rdb} {p : Fin (2 ^ 31)} (h : rdb.check p = .ok ()) :
    rdb.receive p = (rdb.addIndex p, .ok (p : Nat)) := by
  rw [receive, h]
  rfl

theorem receive_of_error {rdb : Rdb} {p : Fin (2 ^ 31)} {e : SrtpErrStatus}
    (h : rdb.check p = .error e) : rdb.receive p = (rdb, .error e) := by
  rw [receive, h]
  rfl

/-- The check passes above the window, and on the clear bits of the window. -/
theorem check_ok_iff (rdb : Rdb) (p : Nat) :
    rdb.check p = .ok () ↔ rdb.top < p ∨
      rdb.windowStart ≤ p ∧ p ≤ rdb.top ∧ rdb.bitmask.getBit (p - rdb.windowStart) = false := by
  have hbits : rdbBitsInBitmask = 128 := rfl
  rw [check, top]
  by_cases habove : rdb.windowStart + rdbBitsInBitmask ≤ p
  · rw [if_pos habove]
    exact ⟨fun _ => .inl (by omega), fun _ => rfl⟩
  rw [if_neg habove]
  by_cases hbelow : p < rdb.windowStart
  · rw [if_pos hbelow]
    refine ⟨fun h => (nomatch h), ?_⟩
    rintro (hgt | ⟨hle, -, -⟩) <;> omega
  rw [if_neg hbelow]
  by_cases hset : rdb.bitmask.getBit (p - rdb.windowStart) = true
  · rw [if_pos hset]
    refine ⟨fun h => (nomatch h), ?_⟩
    rintro (hgt | ⟨-, -, hclear⟩)
    · omega
    · rw [hset] at hclear
      cases hclear
  · rw [if_neg hset]
    exact ⟨fun _ => .inr ⟨by omega, by omega, Bool.eq_false_iff.mpr hset⟩, fun _ => rfl⟩

theorem place_eq {rdb : Rdb} {p : Nat} :
    Lib.place rdbBitsInBitmask rdb.top p = p - rdb.windowStart := by
  simp only [Lib.place, top, rdbBitsInBitmask]
  omega

/-- Adding an index that the check has passed marks it, and moves the window only to make
    it the upper end. -/
theorem tracks_addIndex {rdb : Rdb} {acc : Set Nat} {p : Nat}
    (h : Lib.Tracks rdbBitsInBitmask rdb.top rdb.bitmask.getBit acc)
    (hp : rdb.windowStart ≤ p) :
    Lib.Tracks rdbBitsInBitmask (rdb.addIndex p).top (rdb.addIndex p).bitmask.getBit
        (insert p acc) ∧
      (rdb.addIndex p).top = max rdb.top p := by
  have hbits : rdbBitsInBitmask = 128 := rfl
  have hlen := rdb.bits
  simp only [addIndex]
  by_cases hin : p - rdb.windowStart < rdbBitsInBitmask
  · rw [if_pos hin]
    have hle : p ≤ rdb.top := by rw [top]; omega
    refine ⟨Lib.Tracks.mark h hle (by rw [top]; omega) fun i _ => ?_, ?_⟩
    · rw [Bitvector.getBit_setBit _ _ _ (by rw [hlen]; exact hin), place_eq]
    · rw [Nat.max_eq_left hle]
      rfl
  · rw [if_neg hin]
    have htop : rdb.top = rdb.windowStart + (rdbBitsInBitmask - 1) := rfl
    obtain ⟨d, hd, hpd⟩ : ∃ d, 0 < d ∧ p = rdb.top + d := ⟨p - rdb.top, by omega, by omega⟩
    have hshift : p - rdb.windowStart - (rdbBitsInBitmask - 1) = d := by omega
    have hnew : rdb.windowStart + d + (rdbBitsInBitmask - 1) = rdb.top + d := by omega
    have hmax : max rdb.top p = rdb.top + d := by omega
    have hpos : 0 < rdbBitsInBitmask := by decide
    simp only [hshift]
    show Lib.Tracks rdbBitsInBitmask (rdb.windowStart + d + (rdbBitsInBitmask - 1)) _ _ ∧
      rdb.windowStart + d + (rdbBitsInBitmask - 1) = _
    rw [hnew]
    refine ⟨?_, hmax.symm⟩
    rw [hpd]
    refine Lib.Tracks.advance h hpos hd fun i hi => ?_
    rw [Bitvector.getBit_setBit _ _ _ (by rw [Bitvector.length_leftShift, hlen]; decide),
      Bitvector.getBit_leftShift, hlen]

/-- One packet keeps the database in step with what has been accepted. -/
theorem history_receive (acc : List Nat) (rdb : Rdb) (p : Fin (2 ^ 31)) (h : History acc rdb)
    (_ : True) : History (acc ++ (acceptedAt (Lib.stepAt receive rdb p)).toList) (rdb.receive p).1 := by
  cases hcheck : rdb.check p with
  | error e =>
      simp only [Lib.stepAt, acceptedAt, receive_of_error hcheck, Except.toOption,
        Option.toList_none, List.append_nil]
      exact h
  | ok u =>
      have hwin : rdb.windowStart ≤ p := by
        rcases (check_ok_iff rdb p).mp hcheck with habove | hin
        · rw [top] at habove
          omega
        · exact hin.1
      obtain ⟨htracks, htop⟩ := tracks_addIndex h.tracks hwin
      have hset : {a | a ∈ acc ++ [(p : Nat)]} = insert (p : Nat) {a | a ∈ acc} := by
        ext a
        simp only [List.mem_append, List.mem_singleton, Set.mem_ofPred_eq, Set.mem_insert_iff]
        exact or_comm
      simp only [Lib.stepAt, acceptedAt, receive_of_ok hcheck, Except.toOption, Option.toList_some]
      refine ⟨?_, ?_⟩
      · rw [hset]
        exact htracks
      · rcases Nat.le_total (p : Nat) rdb.top with hle | hge
        · -- The window has not moved.
          rw [Nat.max_eq_left hle] at htop
          rw [htop]
          rcases h.moved with hzero | hmem
          · exact .inl (by rw [top, top] at htop; omega)
          · exact .inr (List.mem_append_left _ hmem)
        · rw [Nat.max_eq_right hge] at htop
          rw [htop]
          exact .inr (List.mem_append_right _ (List.mem_singleton_self _))

/-- An accepted index is a new one. -/
theorem fresh_receive (acc : List Nat) (rdb : Rdb) (p : Fin (2 ^ 31)) (a : Nat)
    (h : History acc rdb) (_ : True) (ha : acceptedAt (Lib.stepAt receive rdb p) = some a) :
    ∀ a' ∈ acc, a' ≠ a := by
  cases hcheck : rdb.check p with
  | error e =>
      simp only [Lib.stepAt, acceptedAt, receive_of_error hcheck, Except.toOption,
        reduceCtorEq] at ha
  | ok u =>
      simp only [Lib.stepAt, acceptedAt, receive_of_ok hcheck, Except.toOption,
        Option.some.injEq] at ha
      rintro a' ha' rfl
      rw [← ha] at ha'
      rcases (check_ok_iff rdb p).mp hcheck with habove | ⟨hlo, hhi, hclear⟩
      · exact h.tracks.toRemembers.fresh_above habove ha'
      · refine h.tracks.toRemembers.fresh ?_ ?_ ha'
        · rw [top] at hhi ⊢
          have hbits : rdbBitsInBitmask = 128 := rfl
          omega
        · rw [place_eq]
          exact hclear

/-- What the check refuses has been accepted, or is far below something that has. -/
theorem refused_of_history {acc : List Nat} {rdb : Rdb} (h : History acc rdb) {p : Nat}
    (hcheck : rdb.check p ≠ .ok ()) :
    p ∈ acc ∨ ∃ highest ∈ acc, (∀ a ∈ acc, a ≤ highest) ∧ p + 128 ≤ highest := by
  have hbits : rdbBitsInBitmask = 128 := rfl
  rw [Ne, check_ok_iff] at hcheck
  push Not at hcheck
  obtain ⟨hle, hset⟩ := hcheck
  by_cases hbelow : rdb.windowStart ≤ p
  · refine .inl (h.tracks.only p hle (by rw [top]; omega) ?_)
    rw [place_eq]
    exact Bool.eq_true_of_not_eq_false (hset hbelow hle)
  · refine .inr ⟨rdb.top, h.moved.resolve_left (by omega), h.tracks.le_top, ?_⟩
    rw [top]
    omega

/-- A new database has accepted nothing. -/
theorem history_init : History [] init := by
  refine ⟨?_, .inl rfl⟩
  rw [show {a : Nat | a ∈ ([] : List Nat)} = ∅ by simp only [List.not_mem_nil, Set.ofPred_false]]
  exact Lib.Tracks.empty (fun i _ => Bitvector.getBit_alloc _ i)

end Rdb

/-- The replay law of SRTCP. In every run from a new database no index is accepted twice,
    and what is refused after it was accepted in it, or is at least 128 below the highest
    accepted index. -/
theorem srtcp_replay_law (indices : List (Fin (2 ^ 31))) :
    (Rdb.init.accepted indices).Nodup ∧
      ∀ (p : Fin (2 ^ 31)) (e : SrtpErrStatus), (Rdb.init.after indices).check p = .error e →
        (p : Nat) ∈ Rdb.init.accepted indices ∨
          ∃ highest ∈ Rdb.init.accepted indices,
            (∀ a ∈ Rdb.init.accepted indices, a ≤ highest) ∧ (p : Nat) + 128 ≤ highest := by
  have halong : Lib.Along Rdb.receive (fun _ _ => True) Rdb.init indices := fun _ _ => trivial
  have hend := Lib.history_invariant Rdb.History Rdb.history_receive [] Rdb.init indices
    Rdb.history_init halong
  have hpair := Lib.events_pairwise (R := (· ≠ ·)) Rdb.History Rdb.history_receive
    Rdb.fresh_receive [] Rdb.init indices Rdb.history_init halong List.Pairwise.nil
  rw [List.nil_append] at hend hpair
  refine ⟨hpair, fun p e hcheck => ?_⟩
  exact Rdb.refused_of_history hend (by rw [Rdb.after] at hcheck; rw [hcheck]; exact fun h => by cases h)

end Srtp

end CryptoOpal

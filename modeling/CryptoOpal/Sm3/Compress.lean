import CryptoOpal.Sm3.Spec

/-!
# SM3's Compression

`sm3_compress` is the compression function of the standard where a shift takes its amount
modulo 32: then the rotation by the number of a round is the one by its remainder, as the
standard has it.

Where a shift is what C defines, there is no result: round 0 shifts a word to the right by
32.

## Theorems

* `rotateLeft_masked`: The macro is a rotation.
* `extendWords_spec`, `rounds_spec`: The loops.
* `sm3Compress_masked`: The compression function.
* `sm3Compress_strict`: No result.
-/

namespace CryptoOpal

namespace Sm3

open Lib (Octets)

section Masked

/-- The macro is a rotation, by the remainder of the amount. -/
theorem rotateLeft_masked (x : Word) (n : Nat) :
    rotateLeft Shifts.masked x n = (x.rotateLeft (n % 32) : Word) := by
  show x <<< ((n : Int) % 32).toNat ||| x >>> ((32 - (n : Int)) % 32).toNat = _
  rw [BitVec.rotateLeft, BitVec.rotateLeftAux, Nat.mod_mod,
    show ((n : Int) % 32).toNat = n % 32 by omega]
  -- Rotating by 0 shifts one part out and leaves the other as it is.
  by_cases hzero : n % 32 = 0
  · rw [hzero, show ((32 - (n : Int)) % 32).toNat = 0 by omega, BitVec.shiftLeft_zero,
      BitVec.ushiftRight_zero, BitVec.or_self, Nat.sub_zero, BitVec.ushiftRight_eq_zero (by omega),
      BitVec.or_zero]
  · rw [show ((32 - (n : Int)) % 32).toNat = 32 - n % 32 by omega]

theorem p0_masked (x : Word) : p0 Shifts.masked x = permute0 x := by
  rw [p0, rotateLeft_masked, rotateLeft_masked]
  rfl

theorem p1_masked (x : Word) : p1 Shifts.masked x = permute1 x := by
  rw [p1, rotateLeft_masked, rotateLeft_masked]
  rfl

variable {block : Octets}

/-- The words up to `j` are those of the expanded message. -/
def Expands (block : Octets) (w : List Word) (j : Nat) : Prop :=
  w.length = j ∧ ∀ i < j, w.getD i 0 = expanded block i

theorem loadWords_expands (block : Octets) : Expands block (loadWords block) 16 := by
  refine ⟨by rw [loadWords, List.length_map, List.length_range], fun i hi => ?_⟩
  rw [List.getD_eq_getElem?_getD, loadWords, List.getElem?_map, List.getElem?_range hi,
    Option.map_some, Option.getD_some, cpuToBe32_load32, expanded, if_pos hi]

theorem nextWord_masked {w : List Word} {j : Nat} (h : Expands block w j) (hj : 16 ≤ j) :
    nextWord Shifts.masked w j = expanded block j := by
  rw [expanded, if_neg (by omega), ← h.2 (j - 16) (by omega), ← h.2 (j - 9) (by omega),
    ← h.2 (j - 3) (by omega), ← h.2 (j - 13) (by omega), ← h.2 (j - 6) (by omega), nextWord,
    rotateLeft_masked, rotateLeft_masked]
  simp only [p1_masked]
  rfl

/-- The words that are computed. -/
theorem extendWords_spec (k : Nat) {w : List Word} {j : Nat} (h : Expands block w j) (hj : 16 ≤ j) :
    Expands block (extendWords Shifts.masked k j w) (j + k) := by
  induction k generalizing w j with
  | zero => exact h
  | succ k ih =>
      -- The word that is appended is the next one of the recurrence.
      have hnext : Expands block (w ++ [expanded block j]) (j + 1) := by
        refine ⟨by rw [List.length_append, h.1, List.length_singleton], fun i hi => ?_⟩
        rcases Nat.lt_succ_iff_lt_or_eq.mp hi with hlt | rfl
        · rw [List.getD_eq_getElem?_getD, List.getElem?_append_left (by rw [h.1]; exact hlt),
            ← List.getD_eq_getElem?_getD, h.2 i hlt]
        · rw [List.getD_eq_getElem?_getD, List.getElem?_append_right (by rw [h.1]), h.1,
            Nat.sub_self]
          rfl
      have hend := ih hnext (by omega)
      rw [show j + 1 + k = j + (k + 1) by omega] at hend
      rw [extendWords, nextWord_masked h hj]
      exact hend

/-- The array `W1`. -/
theorem getD_zipWith {w : List Word} {j : Nat} (h : j + 4 < w.length) :
    (List.zipWith (· ^^^ ·) w (w.drop 4)).getD j 0 = w.getD j 0 ^^^ w.getD (j + 4) 0 := by
  rw [List.getD_eq_getElem?_getD, List.getD_eq_getElem?_getD, List.getD_eq_getElem?_getD,
    List.getElem?_zipWith, List.getElem?_drop, Nat.add_comm 4 j,
    List.getElem?_eq_getElem (by omega), List.getElem?_eq_getElem h]
  rfl

variable {w : List Word}

/-- A round with the constants of its number. -/
theorem round_masked (hw : Expands block w 68) {t : Word} {ff gg : Word → Word → Word → Word}
    {j : Nat} (hj : j < 64) (ht : t = roundConstant j) (hff : ff = boolFF j) (hgg : gg = boolGG j)
    (r : Words) :
    round Shifts.masked t ff gg w (List.zipWith (· ^^^ ·) w (w.drop 4)) j r =
      cfRound block j r := by
  rw [round, ht, hff, hgg, getD_zipWith (by rw [hw.1]; omega), hw.2 j (by omega),
    hw.2 (j + 4) (by omega)]
  simp only [rotateLeft_masked, p0_masked]
  rfl

/-- Rounds with the same constants go on from those before them. -/
theorem rounds_spec (hw : Expands block w 68) (t : Word) (ff gg : Word → Word → Word → Word)
    (v : Words) (j k : Nat) (hj : j + k ≤ 64)
    (hsame : ∀ i, j ≤ i → i < j + k → t = roundConstant i ∧ ff = boolFF i ∧ gg = boolGG i) :
    rounds Shifts.masked t ff gg w (List.zipWith (· ^^^ ·) w (w.drop 4)) k j (cfRounds block v j) =
      cfRounds block v (j + k) := by
  induction k generalizing j with
  | zero => rfl
  | succ k ih =>
      -- One round from the front, the rest by induction on their number.
      have hfirst := hsame j (Nat.le_refl _) (by omega)
      have hrest := ih (j + 1) (by omega) fun i hi hlt => hsame i (by omega) (by omega)
      rw [rounds, round_masked hw (by omega) hfirst.1 hfirst.2.1 hfirst.2.2]
      rw [show j + 1 + k = j + (k + 1) by omega] at hrest
      exact hrest

theorem Words.exor_comm (x y : Words) : x.exor y = y.exor x := by
  simp only [Words.exor, BitVec.xor_comm]

/-- `sm3_compress` is the compression function. -/
theorem sm3Compress_masked (digest : Words) (block : Octets) :
    sm3Compress Shifts.masked digest block = cf digest block := by
  have hw := extendWords_spec 52 (loadWords_expands block) (Nat.le_refl _)
  -- The two loops of the source go through the rounds 0 to 15 and 16 to 63.
  have hfirst := rounds_spec hw 0x79CC4519#32 ff0 gg0 digest 0 16 (by omega)
    fun i _ hi => by
      have hlt : i < 16 := by omega
      refine ⟨by rw [roundConstant, if_pos hlt], ?_, ?_⟩
      · funext x y z
        rw [boolFF, if_pos hlt, ff0]
      · funext x y z
        rw [boolGG, if_pos hlt, gg0]
  have hsecond := rounds_spec hw 0x7A879D8A#32 ff1 gg1 digest 16 48 (by omega)
    fun i hi _ => by
      have hge : ¬ i < 16 := by omega
      refine ⟨by rw [roundConstant, if_neg hge], ?_, ?_⟩
      · funext x y z
        rw [boolFF, if_neg hge, ff1]
      · funext x y z
        rw [boolGG, if_neg hge, gg1]
  show digest.exor (rounds Shifts.masked 0x7A879D8A#32 ff1 gg1 _ _ 48 16
    (rounds Shifts.masked 0x79CC4519#32 ff0 gg0 _ _ 16 0 (cfRounds block digest 0))) = _
  rw [hfirst, hsecond, cf, Words.exor_comm]

end Masked

section Strict

/-- The first round rotates a word by 0, and so shifts it by 32. -/
theorem round_strict_zero (t : Word) (ff gg : Word → Word → Word → Word) (w w1 : List Word)
    (r : Words) : round Shifts.strict t ff gg w w1 0 r = none := rfl

/-- There is no result. -/
theorem sm3Compress_strict (digest : Words) (block : Octets) :
    sm3Compress Shifts.strict digest block = none := by
  rw [sm3Compress]
  cases extendWords Shifts.strict 52 16 (loadWords block) with
  | none => rfl
  | some w =>
      simp only [rounds, round_strict_zero, bind, Option.bind]

end Strict

end Sm3

end CryptoOpal

import CryptoOpal.Lib.Octets
import Mathlib.Data.Nat.Bitwise

/-!
# Numbers in Groups of Seven Bits

A number is written in base 128, the highest digit first and one digit in an
octet. The top bit of an octet says that another one follows.

A reader need not know how a number was written: it adds up the digits as they
come (`digits`), and stops behind the first octet without a top bit. That this
gives the number back is said once, in `base128_split`.

## Main definitions

* `base128`: The octets of a number.
* `digits`: The digits of some octets, put behind those that have come.
* `followed`: So many digits of a number.

## Theorems

* `base128_split`: One octet ends the number, and the digits are those of it.
* `base128_eq`: The octets of a number, by how many there are.
* `and_group`: A mask takes some digits out.
-/

namespace CryptoOpal

namespace Lib

/-- The digits of a number that another one follows. -/
def continued (n : Nat) : Octets :=
  if n < 128 then [UInt8.ofNat (n + 128)]
  else continued (n / 128) ++ [UInt8.ofNat (n % 128 + 128)]

/-- The octets of a number. -/
def base128 (n : Nat) : Octets :=
  if n < 128 then [UInt8.ofNat n] else continued (n / 128) ++ [UInt8.ofNat (n % 128)]

/-- The digits of some octets, put behind those that have come. -/
def digits (before : Nat) (b : Octets) : Nat :=
  b.foldl (fun n octet => n * 128 + octet.toNat % 128) before

theorem digits_append (before : Nat) (b c : Octets) :
    digits before (b ++ c) = digits (digits before b) c := List.foldl_append

theorem toNat_followed {n : Nat} (h : n < 128) : (UInt8.ofNat (n + 128)).toNat = n + 128 :=
  UInt8.toNat_ofNat_of_lt' (show n + 128 < 256 by omega)

theorem continued_top (n : Nat) : ∀ octet ∈ continued n, 128 ≤ octet.toNat := by
  induction n using Nat.strong_induction_on with
  | _ n ih =>
      intro octet hoctet
      rw [continued] at hoctet
      split at hoctet
      · rename_i hn
        rw [List.mem_singleton.1 hoctet, toNat_followed hn]
        exact Nat.le_add_left _ _
      · rename_i hn
        rcases List.mem_append.1 hoctet with h | h
        · exact ih (n / 128) (by omega) octet h
        · rw [List.mem_singleton.1 h, toNat_followed (Nat.mod_lt _ (by decide))]
          exact Nat.le_add_left _ _

theorem digits_continued (n : Nat) : digits 0 (continued n) = n := by
  induction n using Nat.strong_induction_on with
  | _ n ih =>
      rw [continued]
      split
      · rename_i hn
        simp only [digits, List.foldl_cons, List.foldl_nil, toNat_followed hn]
        omega
      · rename_i hn
        have hlow := toNat_followed (Nat.mod_lt n (by decide : 0 < 128))
        rw [digits_append, ih (n / 128) (by omega)]
        simp only [digits, List.foldl_cons, List.foldl_nil, hlow]
        omega

/-- One octet ends the number, and the digits are those of it. -/
theorem base128_split (n : Nat) : ∃ front last, base128 n = front ++ [last] ∧
    (∀ octet ∈ front, 128 ≤ octet.toNat) ∧ last.toNat < 128 ∧
    digits 0 (front ++ [last]) = n := by
  have hlast {k : Nat} (hk : k < 128) : (UInt8.ofNat k).toNat = k :=
    UInt8.toNat_ofNat_of_lt' (show k < 256 by omega)
  by_cases hn : n < 128
  · refine ⟨[], UInt8.ofNat n, if_pos hn, List.forall_mem_nil _, ?_, ?_⟩
    · rw [hlast hn]
      exact hn
    · simp only [digits, List.nil_append, List.foldl_cons, List.foldl_nil, hlast hn]
      omega
  · have hlow := hlast (Nat.mod_lt n (by decide : 0 < 128))
    refine ⟨continued (n / 128), UInt8.ofNat (n % 128), if_neg hn, continued_top _, ?_, ?_⟩
    · rw [hlow]
      exact Nat.mod_lt _ (by decide)
    · rw [digits_append, digits_continued]
      simp only [digits, List.foldl_cons, List.foldl_nil, hlow]
      omega

/-- So many digits of a number, each with another one behind it. -/
def followed (n : Nat) : Nat → Octets
  | 0 => []
  | i + 1 => followed (n / 128) i ++ [UInt8.ofNat (n % 128 + 128)]

/-- The highest digit is the first one. -/
theorem followed_succ (n i : Nat) :
    followed n (i + 1) = UInt8.ofNat (n / 128 ^ i % 128 + 128) :: followed n i := by
  induction i generalizing n with
  | zero =>
      rw [pow_zero, Nat.div_one]
      rfl
  | succ i ih =>
      rw [followed, ih, Nat.div_div_eq_div_mul, ← pow_succ']
      rfl

/-- A number between two powers has so many digits. -/
theorem continued_eq (i : Nat) {n : Nat} (hlo : 0 < i → 128 ^ i ≤ n) (hhi : n < 128 ^ (i + 1)) :
    continued n = followed n (i + 1) := by
  induction i generalizing n with
  | zero =>
      rw [continued, if_pos (by omega), followed, Nat.mod_eq_of_lt (by omega)]
      rfl
  | succ i ih =>
      have hn : 128 ^ (i + 1) ≤ n := hlo (Nat.succ_pos i)
      have hdigit : 128 ≤ n := Nat.le_trans (Nat.le_self_pow (Nat.succ_ne_zero i) 128) hn
      rw [continued, if_neg (by omega), ih]
      · rfl
      · intro _
        rw [Nat.le_div_iff_mul_le (by decide), ← pow_succ]
        exact hn
      · rw [Nat.div_lt_iff_lt_mul (by decide), ← pow_succ]
        exact hhi

/-- The octets of a number between two powers. -/
theorem base128_eq (i : Nat) {n : Nat} (hlo : 128 ^ (i + 1) ≤ n) (hhi : n < 128 ^ (i + 2)) :
    base128 n = followed (n / 128) (i + 1) ++ [UInt8.ofNat (n % 128)] := by
  have hdigit : 128 ≤ n := Nat.le_trans (Nat.le_self_pow (Nat.succ_ne_zero i) 128) hlo
  rw [base128, if_neg (by omega), continued_eq i]
  · intro _
    rw [Nat.le_div_iff_mul_le (by decide), ← pow_succ]
    exact hlo
  · rw [Nat.div_lt_iff_lt_mul (by decide), ← pow_succ]
    exact hhi

/-- A mask takes some digits out. -/
theorem and_group (n w j : Nat) : n &&& ((2 ^ w - 1) <<< j) = n / 2 ^ j % 2 ^ w * 2 ^ j := by
  refine Nat.eq_of_testBit_eq fun i => ?_
  rw [Nat.testBit_and, Nat.testBit_shiftLeft, Nat.testBit_two_pow_sub_one, Nat.testBit_mul_two_pow,
    Nat.testBit_mod_two_pow, Nat.testBit_div_two_pow]
  by_cases hi : j ≤ i
  · rw [Nat.sub_add_cancel hi]
    simp [hi, Bool.and_comm]
  · simp [hi]

end Lib

end CryptoOpal

import Mathlib.Data.Nat.ModEq
import Mathlib.Tactic.Linarith

/-!
# One's complement sums of 16-bit words

The sum behind the Internet checksums.  Adding the carries back in keeps a sum modulo `2 ^ 16 - 1`,
so that a sum folds to all ones exactly where it is a positive multiple of `2 ^ 16 - 1`; whether the
carries are added while summing, at the end or by an update afterwards makes no difference.
-/

namespace OnesComplement

/-- The carries out of the low 16 bits, added back until none is left. -/
def foldCarries (sum : ℕ) : ℕ :=
  if sum < 2 ^ 16 then sum else foldCarries (sum % 2 ^ 16 + sum / 2 ^ 16)
termination_by sum
decreasing_by omega

variable {sum : ℕ}

theorem foldCarries_of_lt (h : sum < 2 ^ 16) : foldCarries sum = sum := by
  rw [foldCarries, if_pos h]

theorem foldCarries_step (sum : ℕ) :
    foldCarries (sum % 2 ^ 16 + sum / 2 ^ 16) = foldCarries sum := by
  by_cases h : sum < 2 ^ 16
  · rw [Nat.mod_eq_of_lt h, Nat.div_eq_of_lt h, Nat.add_zero]
  · rw [foldCarries.eq_def sum, if_neg h]

theorem foldCarries_lt (sum : ℕ) : foldCarries sum < 2 ^ 16 := by
  induction sum using foldCarries.induct with
  | case1 sum h => rwa [foldCarries_of_lt h]
  | case2 sum _ ih => rwa [foldCarries_step] at ih

theorem foldCarries_modEq (sum : ℕ) : foldCarries sum ≡ sum [MOD 65535] := by
  induction sum using foldCarries.induct with
  | case1 sum h => rw [foldCarries_of_lt h]
  | case2 sum _ ih =>
      rw [foldCarries_step] at ih
      apply ih.trans
      change (sum % 2 ^ 16 + sum / 2 ^ 16) % 65535 = sum % 65535
      omega

theorem foldCarries_pos (h : 0 < sum) : 0 < foldCarries sum := by
  induction sum using foldCarries.induct with
  | case1 sum hlt => rwa [foldCarries_of_lt hlt]
  | case2 sum hlt ih =>
      rw [foldCarries_step] at ih
      apply ih
      omega

/-- Of the two forms of zero a positive sum has the one with all bits set. -/
theorem foldCarries_eq_max (h : 0 < sum) : foldCarries sum = 65535 ↔ 65535 ∣ sum := by
  have hlt := foldCarries_lt sum
  have hpos := foldCarries_pos h
  have hmod : foldCarries sum % 65535 = sum % 65535 := foldCarries_modEq sum
  constructor
  · intro hmax
    rw [hmax] at hmod
    exact Nat.dvd_of_mod_eq_zero hmod.symm
  · intro hdvd
    rw [Nat.mod_eq_zero_of_dvd hdvd] at hmod
    omega

/-- A sum of few words is folded after two additions. -/
theorem foldCarries_eq_twice (h : sum < 2 ^ 18) :
    foldCarries sum =
      (sum % 2 ^ 16 + sum / 2 ^ 16) % 2 ^ 16 + (sum % 2 ^ 16 + sum / 2 ^ 16) / 2 ^ 16 := by
  rw [← foldCarries_step sum, ← foldCarries_step (sum % 2 ^ 16 + sum / 2 ^ 16)]
  apply foldCarries_of_lt
  omega

def wordSum : List UInt8 → ℕ
  | [] => 0
  | [x] => 256 * x.toNat
  | x :: y :: rest => 256 * x.toNat + y.toNat + wordSum rest

@[simp]
theorem wordSum_cons_cons (x y : UInt8) (rest : List UInt8) :
    wordSum (x :: y :: rest) = 256 * x.toNat + y.toNat + wordSum rest :=
  rfl

end OnesComplement

import Mathlib.Data.List.Basic
import Mathlib.Tactic.NormNum
import Mathlib.Tactic.Ring
import Mathlib.Algebra.Order.Ring.Nat

/-!
# Byte strings

Byte strings, blocks of a fixed width that carry their length, and little-endian
integers.
-/

abbrev Bytes : Type := List UInt8

structure Block (n : ℕ) where
  bytes : Bytes
  length_eq : bytes.length = n
  deriving DecidableEq

namespace Block

variable {n : ℕ}

@[ext]
theorem ext {a b : Block n} (h : a.bytes = b.bytes) : a = b := by
  cases a
  cases b
  cases h
  rfl

@[simp]
theorem length_bytes (b : Block n) : b.bytes.length = n :=
  b.length_eq

def ofBytes (n : ℕ) (b : Bytes) : Block n where
  bytes := (b ++ List.replicate n 0).take n
  length_eq := by simp

def replicate (n : ℕ) (x : UInt8) : Block n where
  bytes := List.replicate n x
  length_eq := by simp

theorem ofBytes_bytes_of_length_eq {b : Bytes} (h : b.length = n) :
    (ofBytes n b).bytes = b := by
  simp [ofBytes, ← h]

@[simp]
theorem ofBytes_bytes (b : Block n) : ofBytes n b.bytes = b :=
  ext (ofBytes_bytes_of_length_eq b.length_eq)

@[simp]
theorem take_bytes (b : Block n) : b.bytes.take n = b.bytes :=
  List.take_of_length_le b.length_eq.le

@[simp]
theorem take_bytes_append (b : Block n) (rest : Bytes) :
    (b.bytes ++ rest).take n = b.bytes :=
  List.take_left' b.length_eq

@[simp]
theorem drop_bytes_append (b : Block n) (rest : Bytes) :
    (b.bytes ++ rest).drop n = rest :=
  List.drop_left' b.length_eq

end Block

namespace Bytes

def slice (i j : ℕ) (b : Bytes) : Bytes :=
  (b.drop i).take (j - i)

variable {i j : ℕ} {b : Bytes}

theorem slice_length (hj : j ≤ b.length) : (slice i j b).length = j - i := by
  simp [slice]
  omega

def ofNat : ℕ → ℕ → Bytes
  | 0, _ => []
  | w + 1, x => UInt8.ofNat x :: ofNat w (x / 256)

def toNat : Bytes → ℕ
  | [] => 0
  | x :: b => x.toNat + 256 * toNat b

@[simp]
theorem ofNat_length (w x : ℕ) : (ofNat w x).length = w := by
  induction w generalizing x with
  | zero =>
      rfl
  | succ w ih =>
      simp [ofNat, ih]

theorem toNat_lt (b : Bytes) : toNat b < 256 ^ b.length := by
  induction b with
  | nil =>
      simp [toNat]
  | cons x b ih =>
      have hx : x.toNat < 256 := x.toNat_lt
      rw [toNat, List.length_cons, pow_succ]
      omega

@[simp]
theorem toNat_ofNat (w x : ℕ) : toNat (ofNat w x) = x % 256 ^ w := by
  induction w generalizing x with
  | zero =>
      simp [ofNat, toNat, Nat.mod_one]
  | succ w ih =>
      have hx : (UInt8.ofNat x).toNat = x % 256 := by simp
      rw [ofNat, toNat, ih, hx, pow_succ, Nat.mul_comm (256 ^ w) 256, Nat.mod_mul]

theorem ofNat_toNat (b : Bytes) : ofNat b.length (toNat b) = b := by
  induction b with
  | nil =>
      rfl
  | cons x b ih =>
      have hx : x.toNat < 256 := x.toNat_lt
      have hdiv : (x.toNat + 256 * toNat b) / 256 = toNat b := by omega
      have hmod : UInt8.ofNat (x.toNat + 256 * toNat b) = x := by
        apply UInt8.toNat_inj.mp
        simp
      rw [List.length_cons, toNat, ofNat, hdiv, hmod, ih]

theorem ofNat_injOn {w x y : ℕ} (hx : x < 256 ^ w) (hy : y < 256 ^ w)
    (h : ofNat w x = ofNat w y) : x = y := by
  have hxy : toNat (ofNat w x) = toNat (ofNat w y) := by rw [h]
  simpa [Nat.mod_eq_of_lt hx, Nat.mod_eq_of_lt hy] using hxy

theorem ofNat_ofNat_uint64 (h : b.length = 8) : ofNat 8 (UInt64.ofNat (toNat b)).toNat = b := by
  have hlt : toNat b < 2 ^ 64 := (toNat_lt b).trans_eq (by rw [h]; norm_num)
  rw [UInt64.toNat_ofNat', Nat.mod_eq_of_lt hlt]
  exact h ▸ ofNat_toNat b

theorem ofNat_ofNat_uint32 (h : b.length = 4) : ofNat 4 (UInt32.ofNat (toNat b)).toNat = b := by
  have hlt : toNat b < 2 ^ 32 := (toNat_lt b).trans_eq (by rw [h]; norm_num)
  rw [UInt32.toNat_ofNat', Nat.mod_eq_of_lt hlt]
  exact h ▸ ofNat_toNat b

theorem ofNat_ofNat_uint16 (h : b.length = 2) : ofNat 2 (UInt16.ofNat (toNat b)).toNat = b := by
  have hlt : toNat b < 2 ^ 16 := (toNat_lt b).trans_eq (by rw [h]; norm_num)
  rw [UInt16.toNat_ofNat', Nat.mod_eq_of_lt hlt]
  exact h ▸ ofNat_toNat b

theorem take_append_slice (h : i ≤ j) (b : Bytes) : b.take i ++ slice i j b = b.take j := by
  rw [slice, ← List.take_add, Nat.add_sub_cancel' h]

theorem slice_append_slice {k : ℕ} (hij : i ≤ j) (hjk : j ≤ k) (b : Bytes) :
    slice i j b ++ slice j k b = slice i k b := by
  have hdrop : b.drop j = (b.drop i).drop (j - i) := by
    rw [List.drop_drop, Nat.add_sub_cancel' hij]
  rw [slice, slice, slice, hdrop, ← List.take_add, show j - i + (k - j) = k - i by omega]

theorem slice_append {a : Bytes} (b c : Bytes) (hi : a.length = i) :
    slice i (i + b.length) (a ++ (b ++ c)) = b := by
  rw [slice, List.drop_left' hi, Nat.add_sub_cancel_left, List.take_left]

theorem eq_replicate_of_shift {n : ℕ} (h : b = (0 :: b).take n) : b = List.replicate n 0 := by
  induction n generalizing b with
  | zero => exact h
  | succ n ih =>
      rw [List.take_succ_cons] at h
      have htail : b.take n = (0 :: b.take n).take n := by
        conv_lhs => rw [h]
      rw [h, List.replicate_succ, ih htail]

end Bytes

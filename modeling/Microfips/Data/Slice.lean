import Microfips.Data.Bytes
import Microfips.Data.Fallible

/-!
# Reading slices

Indexing a slice outside its bounds panics.  The readers of this file return that panic.
-/

namespace Bytes

variable {ε : Type}

/-- `b[i]`. -/
def index (b : Bytes) (i : ℕ) : Except (Fault ε) UInt8 :=
  match b[i]? with
  | some x => .ok x
  | none => .error .panic

/-- `b[i..j]`. -/
def range (b : Bytes) (i j : ℕ) : Except (Fault ε) Bytes :=
  if i ≤ j ∧ j ≤ b.length then .ok (slice i j b) else .error .panic

/-- `b[i..]`. -/
def rangeFrom (b : Bytes) (i : ℕ) : Except (Fault ε) Bytes :=
  range b i b.length

/-- `b[..j]`. -/
def rangeTo (b : Bytes) (j : ℕ) : Except (Fault ε) Bytes :=
  range b 0 j

/-- `[b[i], b[i + 1], ..]`, an array of `n` bytes. -/
def indices (b : Bytes) (i : ℕ) : ℕ → Except (Fault ε) Bytes
  | 0 => .ok []
  | n + 1 => do
      let x ← index b i
      let xs ← indices b (i + 1) n
      return x :: xs

/-- `a - b` on unsigned integers. -/
def minus (a b : ℕ) : Except (Fault ε) ℕ :=
  if b ≤ a then .ok (a - b) else .error .panic

/-- `u16::from_le_bytes([b[i], b[i + 1]])`. -/
def indexU16 (b : Bytes) (i : ℕ) : Except (Fault ε) ℕ := do
  let lo ← index b i
  let hi ← index b (i + 1)
  return lo.toNat + 256 * hi.toNat

variable {b : Bytes} {i : ℕ}

theorem index_eq_ok (h : i < b.length) : (index b i : Except (Fault ε) UInt8) = .ok b[i] := by
  simp [index, h]

theorem index_eq_getD (h : i < b.length) :
    (index b i : Except (Fault ε) UInt8) = .ok (b.getD i 0) := by
  simp [index, h]

theorem range_eq_ok {j : ℕ} (hij : i ≤ j) (hj : j ≤ b.length) :
    (range b i j : Except (Fault ε) Bytes) = .ok (slice i j b) :=
  if_pos ⟨hij, hj⟩

theorem rangeFrom_eq_ok (h : i ≤ b.length) :
    (rangeFrom b i : Except (Fault ε) Bytes) = .ok (b.drop i) := by
  rw [rangeFrom, range_eq_ok h le_rfl, slice, List.take_of_length_le (by simp)]

theorem rangeTo_eq_ok {j : ℕ} (h : j ≤ b.length) :
    (rangeTo b j : Except (Fault ε) Bytes) = .ok (b.take j) := by
  rw [rangeTo, range_eq_ok (Nat.zero_le j) h, slice, List.drop_zero, Nat.sub_zero]

theorem indices_eq_ok {n : ℕ} (h : i + n ≤ b.length) :
    (indices b i n : Except (Fault ε) Bytes) = .ok (slice i (i + n) b) := by
  induction n generalizing i with
  | zero => simp [indices, slice]
  | succ n ih =>
      have hi : i < b.length := by omega
      rw [indices, index_eq_ok hi, ih (by omega), slice, slice, List.drop_eq_getElem_cons hi,
        Nat.add_sub_cancel_left, Nat.add_sub_cancel_left]
      rfl

theorem minus_eq_ok {a b : ℕ} (h : b ≤ a) : (minus a b : Except (Fault ε) ℕ) = .ok (a - b) :=
  if_pos h

theorem indexU16_append (a b : Bytes) {n : ℕ} (hn : n < 2 ^ 16) :
    (indexU16 (a ++ (ofNat 2 n ++ b)) a.length : Except (Fault ε) ℕ) = .ok n := by
  have hlo : (a ++ (ofNat 2 n ++ b))[a.length]? = some (UInt8.ofNat n) := by
    simp [ofNat]
  have hhi : (a ++ (ofNat 2 n ++ b))[a.length + 1]? = some (UInt8.ofNat (n / 256)) := by
    simp [ofNat]
  simp only [indexU16, index, hlo, hhi, Except.ok_bind, Except.pure_eq_ok]
  congr 1
  simp
  omega

theorem range_append (a b c : Bytes) :
    (range (a ++ (b ++ c)) a.length (a.length + b.length) : Except (Fault ε) Bytes) = .ok b := by
  rw [range_eq_ok (by omega) (by simp)]
  simp [slice]

end Bytes

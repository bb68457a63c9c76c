import Microfips.Data.Text

/-!
# Hexadecimal texts

Digits of either case, and bytes as pairs of digits.
-/

namespace Hex

def isDigit (c : Char) : Bool :=
  ('0' ≤ c && c ≤ '9') || ('a' ≤ c && c ≤ 'f') || ('A' ≤ c && c ≤ 'F')

def value (c : Char) : ℕ :=
  if c ≤ '9' then c.toNat - '0'.toNat
  else if c ≤ 'F' then c.toNat - 'A'.toNat + 10
  else c.toNat - 'a'.toNat + 10

def toDigit (c : Char) : Option ℕ :=
  if isDigit c then some (value c) else none

def bytes : List Char → Bytes
  | hi :: lo :: cs => UInt8.ofNat (16 * value hi + value lo) :: bytes cs
  | _ => []

def decode : List Char → Option Bytes
  | hi :: lo :: cs => do
      let hi ← toDigit hi
      let lo ← toDigit lo
      let rest ← decode cs
      return UInt8.ofNat (hi <<< 4 ||| lo) :: rest
  | _ => some []

variable {c : Char}

theorem isDigit_iff : isDigit c = true ↔ 48 ≤ c.toNat ∧ c.toNat ≤ 57 ∨
    97 ≤ c.toNat ∧ c.toNat ≤ 102 ∨ 65 ≤ c.toNat ∧ c.toNat ≤ 70 := by
  simp only [isDigit, Bool.or_eq_true, Bool.and_eq_true, decide_eq_true_eq, or_assoc]
  rfl

theorem toDigit_eq_some_iff {v : ℕ} : toDigit c = some v ↔ isDigit c = true ∧ v = value c := by
  unfold toDigit
  split
  · next h => simp [h, eq_comm]
  · next h => simp [h]

theorem toNat_lt_of_isDigit (h : isDigit c = true) : c.toNat < 128 := by
  rw [isDigit_iff] at h
  omega

theorem value_eq (c : Char) : value c =
    if c.toNat ≤ 57 then c.toNat - 48 else if c.toNat ≤ 70 then c.toNat - 65 + 10
      else c.toNat - 97 + 10 :=
  rfl

theorem value_lt (h : isDigit c = true) : value c < 16 := by
  rw [isDigit_iff] at h
  rw [value_eq]
  split_ifs <;> omega

theorem value_eq_iff (h : isDigit c = true) {v : ℕ} (hv : v < 10) :
    value c = v ↔ c.toNat = 48 + v := by
  rw [isDigit_iff] at h
  rw [value_eq]
  split_ifs <;> omega

theorem shiftLeft_or {hi lo : ℕ} (h : lo < 16) : hi <<< 4 ||| lo = 16 * hi + lo := by
  rw [← Nat.shiftLeft_add_eq_or_of_lt h, Nat.shiftLeft_eq]
  omega

/-- What is decoded: an even number of digits stands for its bytes. -/
theorem decode_iff {cs : List Char} {b : Bytes} (heven : cs.length % 2 = 0) :
    decode cs = some b ↔ (∀ c ∈ cs, isDigit c = true) ∧ b = bytes cs := by
  fun_induction bytes cs generalizing b with
  | case1 hi lo cs ih =>
      have heven' : cs.length % 2 = 0 := by
        rw [List.length_cons, List.length_cons] at heven
        omega
      rw [decode, List.forall_mem_cons, List.forall_mem_cons]
      constructor
      · intro h
        obtain ⟨v, hhi, h⟩ := Option.bind_eq_some_iff.mp h
        obtain ⟨w, hlo, h⟩ := Option.bind_eq_some_iff.mp h
        obtain ⟨rest, hrest, h⟩ := Option.bind_eq_some_iff.mp h
        obtain ⟨hdigit, rfl⟩ := toDigit_eq_some_iff.mp hhi
        obtain ⟨hdigit', rfl⟩ := toDigit_eq_some_iff.mp hlo
        obtain ⟨hall, rfl⟩ := (ih heven').mp hrest
        cases h
        rw [shiftLeft_or (value_lt hdigit')]
        exact ⟨⟨hdigit, hdigit', hall⟩, rfl⟩
      · rintro ⟨⟨hdigit, hdigit', hall⟩, rfl⟩
        rw [toDigit, if_pos hdigit, toDigit, if_pos hdigit', (ih heven').mpr ⟨hall, rfl⟩,
          ← shiftLeft_or (value_lt hdigit')]
        rfl
  | case2 cs hshort =>
      cases cs with
      | nil =>
          constructor
          · intro h
            cases h
            exact ⟨List.forall_mem_nil _, rfl⟩
          · rintro ⟨-, rfl⟩
            rfl
      | cons c cs =>
          cases cs with
          | nil => cases heven
          | cons d cs => exact (hshort c d cs rfl).elim

theorem length_bytes (cs : List Char) : (bytes cs).length = cs.length / 2 := by
  fun_induction bytes cs with
  | case1 hi lo cs ih =>
      rw [List.length_cons, ih, List.length_cons, List.length_cons]
      omega
  | case2 cs hshort =>
      cases cs with
      | nil => rfl
      | cons c cs =>
          cases cs with
          | nil => simp
          | cons d cs => exact (hshort c d cs rfl).elim

end Hex

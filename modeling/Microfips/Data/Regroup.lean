import Microfips.Data.Runs
import Mathlib.Data.List.Induction
import Mathlib.Data.Nat.Bitwise
import Mathlib.Data.Nat.Digits.Defs

/-!
# Regrouping of digits

Numbers of a fixed count of digits, most significant first, and the loop that turns digits of one
width into digits of another with an accumulator of limited width.  The accumulator holds the low
bits of the number that was read, so what the loop writes are the digits of that number.
-/

namespace Regroup

def number (base : ℕ) (digits : List ℕ) : ℕ :=
  Nat.ofDigits base digits.reverse

def toDigits (base : ℕ) : ℕ → ℕ → List ℕ
  | 0, _ => []
  | n + 1, x => toDigits base n (x / base) ++ [x % base]

section Digits

variable {base n x : ℕ} {digits : List ℕ}

@[simp]
theorem number_nil : number base [] = 0 :=
  rfl

@[simp]
theorem number_append_singleton (base : ℕ) (digits : List ℕ) (d : ℕ) :
    number base (digits ++ [d]) = number base digits * base + d := by
  rw [number, List.reverse_append, List.reverse_singleton, List.singleton_append, Nat.ofDigits_cons,
    Nat.mul_comm, Nat.add_comm]
  rfl

theorem number_lt (hbase : 1 < base) (h : ∀ d ∈ digits, d < base) :
    number base digits < base ^ digits.length := by
  rw [← List.length_reverse]
  apply Nat.ofDigits_lt_base_pow_length hbase
  simpa using h

theorem number_inj (hbase : 1 < base) {digits' : List ℕ} (hlen : digits.length = digits'.length)
    (h : ∀ d ∈ digits, d < base) (h' : ∀ d ∈ digits', d < base)
    (heq : number base digits = number base digits') : digits = digits' := by
  apply List.reverse_inj.mp
  apply Nat.ofDigits_inj_of_len_eq hbase (by simpa using hlen) _ _ heq
  · simpa using h
  · simpa using h'

@[simp]
theorem length_toDigits (base n x : ℕ) : (toDigits base n x).length = n := by
  induction n generalizing x with
  | zero => rfl
  | succ n ih => simp [toDigits, ih]

theorem lt_of_mem_toDigits (hbase : 0 < base) {d : ℕ} (h : d ∈ toDigits base n x) : d < base := by
  induction n generalizing x with
  | zero => cases h
  | succ n ih =>
      rcases List.mem_append.mp h with h | h
      · exact ih h
      · rw [List.mem_singleton.mp h]
        exact Nat.mod_lt x hbase

theorem number_toDigits (base n x : ℕ) : number base (toDigits base n x) = x % base ^ n := by
  induction n generalizing x with
  | zero => simp [toDigits, Nat.mod_one]
  | succ n ih =>
      rw [toDigits, number_append_singleton, ih, pow_succ, Nat.mul_comm (base ^ n) base,
        Nat.mod_mul,
        Nat.mul_comm, Nat.add_comm]

theorem toDigits_number (hbase : 1 < base) (h : ∀ d ∈ digits, d < base) :
    toDigits base digits.length (number base digits) = digits := by
  apply number_inj hbase (by simp) _ h
  · rw [number_toDigits, Nat.mod_eq_of_lt (number_lt hbase h)]
  · exact fun d hd => lt_of_mem_toDigits (by omega) hd

end Digits

/-- The widths of a regrouping in bits: of the accumulator, of the digits that are read and of those
that are written, and how many of the latter there is room for. -/
structure Widths where
  acc : ℕ
  source : ℕ
  target : ℕ
  room : ℕ

structure State where
  acc : ℕ
  bits : ℕ
  out : List ℕ

variable (w : Widths)

/-- Digits are written while the accumulator holds enough bits for one; `none` where there is no
room left. -/
def emit : ℕ → State → Option State
  | 0, s => some s
  | fuel + 1, s =>
      if s.bits < w.target then
        some s
      else if s.out.length = w.room then
        none
      else
        emit fuel
          { s with
            bits := s.bits - w.target
            out := s.out ++ [(s.acc >>> (s.bits - w.target)) % 2 ^ w.target] }

def push (s : State) (d : ℕ) : Option State :=
  emit w (s.bits + w.source)
    { s with
      acc := (s.acc <<< w.source) % 2 ^ w.acc ||| d
      bits := s.bits + w.source }

def regroup (digits : List ℕ) : Option State :=
  Runs.run (push w) { acc := 0, bits := 0, out := [] } digits

/-- The state after a number of `total` bits was read. -/
structure Holds (x total : ℕ) (s : State) : Prop where
  acc_eq : s.acc = x % 2 ^ w.acc
  bits_eq : s.bits + w.target * s.out.length = total
  out_eq : s.out = toDigits (2 ^ w.target) s.out.length (x / 2 ^ s.bits)

variable {w} {x total : ℕ} {s : State}

theorem Holds.emit_one (h : Holds w x total s) (hle : w.target ≤ s.bits) (hacc : s.bits ≤ w.acc) :
    Holds w x total
      { s with
        bits := s.bits - w.target
        out := s.out ++ [(s.acc >>> (s.bits - w.target)) % 2 ^ w.target] } where
  acc_eq := h.acc_eq
  bits_eq := by
    have hbits := h.bits_eq
    simp only [List.length_append, List.length_singleton, Nat.mul_add, Nat.mul_one]
    omega
  out_eq := by
    -- The bits that are written are not among those the accumulator has lost.
    have hdigit : s.acc >>> (s.bits - w.target) % 2 ^ w.target =
        x / 2 ^ (s.bits - w.target) % 2 ^ w.target := by
      rw [h.acc_eq, Nat.shiftRight_eq_div_pow, ← Nat.mod_mul_right_div_self,
        ← Nat.mod_mul_right_div_self, ← pow_add, Nat.sub_add_cancel hle,
        Nat.mod_mod_of_dvd _ (pow_dvd_pow 2 hacc)]
    have hrest : x / 2 ^ (s.bits - w.target) / 2 ^ w.target = x / 2 ^ s.bits := by
      rw [Nat.div_div_eq_div_mul, ← pow_add, Nat.sub_add_cancel hle]
    dsimp only
    rw [List.length_append, List.length_singleton, toDigits, hrest, ← h.out_eq, hdigit]

theorem Holds.emit (h : Holds w x total s) (hpos : 0 < w.target) (hacc : s.bits ≤ w.acc)
    (hroom : total < w.target * (w.room + 1)) {fuel : ℕ} (hfuel : s.bits ≤ fuel) :
    ∃ t, emit w fuel s = some t ∧ Holds w x total t ∧ t.bits < w.target := by
  induction fuel generalizing s with
  | zero => exact ⟨s, rfl, h, by omega⟩
  | succ fuel ih =>
      rw [Regroup.emit]
      by_cases hlt : s.bits < w.target
      · exact ⟨s, if_pos hlt, h, hlt⟩
      · have hle : w.target ≤ s.bits := Nat.le_of_not_lt hlt
        have hfull : s.out.length ≠ w.room := by
          intro hfull
          have hbits := h.bits_eq
          rw [hfull] at hbits
          rw [Nat.mul_add, Nat.mul_one] at hroom
          omega
        rw [if_neg hlt, if_neg hfull]
        apply ih (h.emit_one hle hacc)
        · exact (Nat.sub_le _ _).trans hacc
        · dsimp only
          omega

theorem Holds.push (h : Holds w x total s) (hpos : 0 < w.target) (hbits : s.bits < w.target)
    (hacc : w.source + w.target ≤ w.acc + 1) (hroom : total + w.source < w.target * (w.room + 1))
    {d : ℕ} (hd : d < 2 ^ w.source) :
    ∃ t, push w s d = some t ∧ Holds w (x * 2 ^ w.source + d) (total + w.source) t ∧
      t.bits < w.target := by
  rw [Regroup.push]
  refine Holds.emit ⟨?_, ?_, ?_⟩ hpos ?_ hroom le_rfl
  · -- The bits that are shifted out are above the width of the accumulator.
    have hsplit : 2 ^ w.acc = 2 ^ (w.acc - w.source) * 2 ^ w.source := by
      rw [← pow_add, Nat.sub_add_cancel (by omega)]
    have hshift : s.acc <<< w.source % 2 ^ w.acc =
        (x % 2 ^ (w.acc - w.source)) <<< w.source := by
      rw [h.acc_eq, Nat.shiftLeft_eq, Nat.shiftLeft_eq, hsplit, Nat.mul_mod_mul_right,
        Nat.mod_mul_right_mod]
    dsimp only
    rw [hshift, ← Nat.shiftLeft_add_eq_or_of_lt hd, Nat.shiftLeft_eq, hsplit,
      Nat.mul_comm (2 ^ (w.acc - w.source)), Nat.mod_mul, Nat.mul_comm x,
      Nat.mul_add_mod, Nat.mod_eq_of_lt hd, Nat.mul_add_div (Nat.two_pow_pos _),
      Nat.div_eq_of_lt hd, Nat.add_zero, Nat.mul_comm, Nat.add_comm]
  · have hold := h.bits_eq
    dsimp only
    omega
  · have hdiv : (x * 2 ^ w.source + d) / 2 ^ (s.bits + w.source) = x / 2 ^ s.bits := by
      rw [Nat.add_comm s.bits, pow_add, ← Nat.div_div_eq_div_mul, Nat.mul_comm x,
        Nat.mul_add_div (Nat.two_pow_pos _), Nat.div_eq_of_lt hd, Nat.add_zero]
    dsimp only
    rw [hdiv]
    exact h.out_eq
  · dsimp only
    omega

theorem exists_regroup (hpos : 0 < w.target) (hacc : w.source + w.target ≤ w.acc + 1)
    {digits : List ℕ} (hdigits : ∀ d ∈ digits, d < 2 ^ w.source)
    (hroom : w.source * digits.length < w.target * (w.room + 1)) :
    ∃ s, regroup w digits = some s ∧
      Holds w (number (2 ^ w.source) digits) (w.source * digits.length) s ∧ s.bits < w.target := by
  induction digits using List.reverseRecOn with
  | nil =>
      refine ⟨_, rfl, ⟨?_, ?_, rfl⟩, hpos⟩
      · simp
      · simp
  | append_singleton digits d ih =>
      have hlast : d < 2 ^ w.source := hdigits d (by simp)
      rw [List.length_append, List.length_singleton, Nat.mul_add, Nat.mul_one] at hroom ⊢
      obtain ⟨s, hs, hholds, hbits⟩ :=
        ih (fun d' hd' => hdigits d' (List.mem_append_left _ hd')) (by omega)
      obtain ⟨t, ht, hholds', hbits'⟩ := hholds.push hpos hbits hacc hroom hlast
      refine ⟨t, ?_, ?_, hbits'⟩
      · rw [regroup, Runs.run_append, ← regroup, hs]
        simp [Runs.run, ht]
      · rwa [number_append_singleton]

end Regroup

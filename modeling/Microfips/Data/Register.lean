import Mathlib.Data.List.Basic
import Mathlib.Data.Nat.Bitwise

/-!
# Registers

A register takes symbols one after the other.  Where a step loses neither the register nor the
symbol, words that differ in one place leave it in different states.  For steps that are linear in
exclusive or it is enough that no state but zero is taken to zero.
-/

namespace Register

section Separates

variable {σ ν : Type*}

/-- From a state of the register and a symbol a step separates: either can be read back from the
outcome and the other. -/
structure Separates (step : σ → ν → σ) (State : σ → Prop) (Symbol : ν → Prop) : Prop where
  keeps : ∀ {s v}, State s → Symbol v → State (step s v)
  state : ∀ {s t v}, State s → State t → Symbol v → step s v = step t v → s = t
  symbol : ∀ {s v w}, State s → Symbol v → Symbol w → step s v = step s w → v = w

namespace Separates

variable {step : σ → ν → σ} {State : σ → Prop} {Symbol : ν → Prop} {s t : σ} {word : List ν}

theorem keeps_foldl (h : Separates step State Symbol) (hs : State s)
    (hword : ∀ v ∈ word, Symbol v) : State (word.foldl step s) := by
  induction word generalizing s with
  | nil => exact hs
  | cons v word ih =>
      apply ih (h.keeps hs (hword v List.mem_cons_self))
      exact fun w hw => hword w (List.mem_cons_of_mem v hw)

theorem eq_of_foldl_eq (h : Separates step State Symbol) (hs : State s) (ht : State t)
    (hword : ∀ v ∈ word, Symbol v) (heq : word.foldl step s = word.foldl step t) : s = t := by
  induction word generalizing s t with
  | nil => exact heq
  | cons v word ih =>
      have hv : Symbol v := hword v List.mem_cons_self
      have hstep : step s v = step t v :=
        ih (h.keeps hs hv) (h.keeps ht hv) (fun w hw => hword w (List.mem_cons_of_mem v hw)) heq
      exact h.state hs ht hv hstep

theorem foldl_replace_ne (h : Separates step State Symbol) (hs : State s) {before after : List ν}
    {v w : ν} (hbefore : ∀ x ∈ before, Symbol x) (hafter : ∀ x ∈ after, Symbol x) (hv : Symbol v)
    (hw : Symbol w) (hne : v ≠ w) :
    (before ++ v :: after).foldl step s ≠ (before ++ w :: after).foldl step s := by
  have hstate := h.keeps_foldl hs hbefore
  intro heq
  rw [List.foldl_append, List.foldl_append, List.foldl_cons, List.foldl_cons] at heq
  apply hne
  apply h.symbol hstate hv hw
  exact h.eq_of_foldl_eq (h.keeps hstate hv) (h.keeps hstate hw) hafter heq

end Separates

end Separates

def XorLinear (step : ℕ → ℕ → ℕ) : Prop :=
  ∀ s t v w, step (s ^^^ t) (v ^^^ w) = step s v ^^^ step t w

namespace XorLinear

variable {step : ℕ → ℕ → ℕ}

/-- What a word does to a register is what zeros do to it, and what the word does to zero. -/
theorem foldl_eq (h : XorLinear step) (s t : ℕ) (word : List ℕ) :
    word.foldl step (s ^^^ t) =
      (List.replicate word.length 0).foldl step s ^^^ word.foldl step t := by
  induction word generalizing s t with
  | nil => rfl
  | cons v word ih =>
      rw [List.foldl_cons, List.length_cons, List.replicate_succ, List.foldl_cons, List.foldl_cons,
        ← ih, ← h, Nat.zero_xor]

/-- On states of `n` bits a linear step separates if it takes no state but zero to zero, and leaves
a symbol that meets zero as it is. -/
theorem separates (h : XorLinear step) {n : ℕ} {Symbol : ℕ → Prop}
    (hlt : ∀ s v, s < 2 ^ n → Symbol v → step s v < 2 ^ n) (hzero : ∀ v, step 0 v = v)
    (hkernel : ∀ s, s < 2 ^ n → step s 0 = 0 → s = 0) :
    Separates step (· < 2 ^ n) Symbol where
  keeps hs hv := hlt _ _ hs hv
  state {s t v} hs ht _ heq := by
    apply Nat.eq_of_xor_eq_zero
    apply hkernel _ (Nat.xor_lt_two_pow hs ht)
    calc
      step (s ^^^ t) 0 = step (s ^^^ t) (v ^^^ v) := by rw [Nat.xor_self]
      _ = step s v ^^^ step t v := h s t v v
      _ = 0 := by rw [heq, Nat.xor_self]
  symbol {s v w} _ _ _ heq := by
    apply Nat.eq_of_xor_eq_zero
    calc
      v ^^^ w = step (s ^^^ s) (v ^^^ w) := by rw [Nat.xor_self, hzero]
      _ = step s v ^^^ step s w := h s s v w
      _ = 0 := by rw [heq, Nat.xor_self]

end XorLinear

end Register

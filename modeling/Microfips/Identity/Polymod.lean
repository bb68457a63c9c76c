import Microfips.Data.Register
import Microfips.Identity.Bech32

/-!
# The checksum of an `npub`

`polymod_step` is linear in exclusive or, and on its 30 bits it takes no register but zero to zero:
the low five bits of the generators are independent.  So a single changed value is always seen, and
the six values that complete a word are determined by it.
-/

namespace Microfips
namespace Identity

open Register Regroup

def feedback (top : ℕ) : ℕ :=
  gen.zipIdx.foldl (fun chk gi => if (top >>> gi.2) &&& 1 = 1 then chk ^^^ gi.1 else chk) 0

def pick (g : ℕ) (bit : Bool) : ℕ :=
  if bit then g else 0

theorem pick_xor (g : ℕ) (a b : Bool) : pick g (a ^^ b) = pick g a ^^^ pick g b := by
  cases a <;> cases b <;> simp [pick]

theorem xor_pick (x g top i : ℕ) :
    (if (top >>> i) &&& 1 = 1 then x ^^^ g else x) = x ^^^ pick g (top.testBit i) := by
  have hbit : (top >>> i) &&& 1 = 1 ↔ top.testBit i = true := by
    rw [Nat.testBit_eq_decide_div_mod_eq, Nat.shiftRight_eq_div_pow, Nat.and_one_is_mod,
      decide_eq_true_iff]
  rw [pick]
  by_cases h : top.testBit i = true
  · rw [if_pos (hbit.mpr h), if_pos h]
  · rw [if_neg (mt hbit.mp h), if_neg h, Nat.xor_zero]

theorem feedback_eq (top : ℕ) :
    feedback top = pick 0x3b6a57b2 (top.testBit 0) ^^^ pick 0x26508e6d (top.testBit 1) ^^^
      pick 0x1ea119fa (top.testBit 2) ^^^ pick 0x3d4233dd (top.testBit 3) ^^^
      pick 0x2a1462b3 (top.testBit 4) := by
  rw [feedback, gen]
  simp only [List.zipIdx_cons, List.zipIdx_nil, List.foldl_cons, List.foldl_nil, xor_pick,
    Nat.zero_xor, Nat.zero_add, Nat.reduceAdd]

theorem polymodStep_eq (chk value : ℕ) :
    polymodStep chk value =
      ((chk &&& 0x01ffffff) <<< 5) ^^^ value ^^^ feedback (chk >>> 25) := by
  rw [polymodStep, feedback_eq, gen]
  simp only [List.zipIdx_cons, List.zipIdx_nil, List.foldl_cons, List.foldl_nil, xor_pick,
    Nat.zero_add, Nat.reduceAdd, Nat.xor_assoc]

theorem feedback_xor (s t : ℕ) : feedback (s ^^^ t) = feedback s ^^^ feedback t := by
  simp only [feedback_eq, Nat.testBit_xor, pick_xor]
  ac_rfl

theorem xorLinear_polymodStep : XorLinear polymodStep := by
  intro s t v w
  simp only [polymodStep_eq, Nat.and_xor_distrib_right, Nat.shiftLeft_xor_distrib,
    Nat.shiftRight_xor_distrib, feedback_xor]
  ac_rfl

theorem and_mask (x : ℕ) : x &&& 0x01ffffff = x % 2 ^ 25 :=
  Nat.and_two_pow_sub_one_eq_mod x 25

def FiveBit (value : ℕ) : Prop :=
  value < 32

variable {value : ℕ}

theorem shiftLeft_xor (x : ℕ) (hvalue : FiveBit value) : x <<< 5 ^^^ value = x * 32 + value := by
  have hdiv : (x <<< 5 ^^^ value) / 2 ^ 5 = x := by
    rw [Nat.xor_div_two_pow, Nat.shiftLeft_eq, Nat.mul_div_cancel _ (by decide),
      Nat.div_eq_of_lt hvalue, Nat.xor_zero]
  have hmod : (x <<< 5 ^^^ value) % 2 ^ 5 = value := by
    rw [Nat.xor_mod_two_pow, Nat.shiftLeft_eq, Nat.mul_mod_left, Nat.mod_eq_of_lt hvalue,
      Nat.zero_xor]
  omega

theorem polymodStep_of_lt {chk : ℕ} (hchk : chk < 2 ^ 25) (hvalue : FiveBit value) :
    polymodStep chk value = chk * 32 + value := by
  have htop : chk >>> 25 = 0 := by rw [Nat.shiftRight_eq_div_pow, Nat.div_eq_of_lt hchk]
  have hfeedback : feedback 0 = 0 := by decide
  rw [polymodStep_eq, htop, hfeedback, Nat.xor_zero, and_mask, Nat.mod_eq_of_lt hchk,
    shiftLeft_xor chk hvalue]

theorem feedback_lt (top : ℕ) : feedback top < 2 ^ 30 := by
  have hpick (g : ℕ) (bit : Bool) (hg : g < 2 ^ 30) : pick g bit < 2 ^ 30 := by
    cases bit
    · exact Nat.two_pow_pos 30
    · exact hg
  rw [feedback_eq]
  iterate 4 apply Nat.xor_lt_two_pow
  all_goals exact hpick _ _ (by decide)

theorem polymodStep_lt (chk : ℕ) (hvalue : FiveBit value) : polymodStep chk value < 2 ^ 30 := by
  have hlt : chk % 2 ^ 25 < 2 ^ 25 := Nat.mod_lt _ (by decide)
  have hshift : (chk % 2 ^ 25) <<< 5 ^^^ value < 2 ^ 30 := by
    rw [FiveBit] at hvalue
    rw [shiftLeft_xor _ hvalue]
    omega
  rw [polymodStep_eq, and_mask]
  exact Nat.xor_lt_two_pow hshift (feedback_lt _)

theorem eq_zero_of_feedback_mod : ∀ top < 32, feedback top % 32 = 0 → top = 0 := by
  decide

theorem eq_zero_of_polymodStep {chk : ℕ} (hchk : chk < 2 ^ 30) (h : polymodStep chk 0 = 0) :
    chk = 0 := by
  rw [polymodStep_eq, and_mask, Nat.xor_zero, Nat.shiftLeft_eq] at h
  have hfeedback := Nat.eq_of_xor_eq_zero h
  have htop : chk >>> 25 = 0 := by
    apply eq_zero_of_feedback_mod
    · rw [Nat.shiftRight_eq_div_pow]
      omega
    · rw [← hfeedback]
      exact Nat.mul_mod_left _ _
  have hzero : feedback 0 = 0 := by decide
  rw [htop, hzero] at hfeedback
  rw [Nat.shiftRight_eq_div_pow] at htop
  omega

theorem polymodStep_zero (value : ℕ) : polymodStep 0 value = value := by
  have hfeedback : feedback 0 = 0 := by decide
  simp [polymodStep_eq, hfeedback]

theorem separates_polymodStep : Separates polymodStep (· < 2 ^ 30) FiveBit :=
  xorLinear_polymodStep.separates (fun s _ _ hv => polymodStep_lt s hv) polymodStep_zero
    fun _ => eq_zero_of_polymodStep

theorem hrpChk_lt : hrpChk < 2 ^ 30 := by
  decide

theorem foldl_polymodStep_zero {values : List ℕ} (hlen : values.length ≤ 6)
    (hvalues : ∀ v ∈ values, FiveBit v) : values.foldl polymodStep 0 = number 32 values := by
  induction values using List.reverseRecOn with
  | nil => rfl
  | append_singleton values v ih =>
      rw [List.length_append, List.length_singleton] at hlen
      have hinit : ∀ v ∈ values, FiveBit v := fun x hx => hvalues x (List.mem_append_left _ hx)
      have hlt : number 32 values < 2 ^ 25 :=
        calc
          number 32 values < 32 ^ values.length := number_lt (by decide) hinit
          _ ≤ 32 ^ 5 := Nat.pow_le_pow_right (by decide) (by omega)
          _ = 2 ^ 25 := by decide
      rw [List.foldl_append, ih (by omega) hinit, number_append_singleton]
      exact polymodStep_of_lt hlt (hvalues v (by simp))

theorem shift_and_eq_toDigits (pm : ℕ) :
    ((List.range 6).map fun i => (pm >>> (5 * (5 - i))) &&& 0x1f) = toDigits 32 6 pm := by
  have hmask (x : ℕ) : x &&& 0x1f = x % 32 := Nat.and_two_pow_sub_one_eq_mod x 5
  simp [List.range_succ, toDigits, hmask, Nat.shiftRight_eq_div_pow, Nat.div_div_eq_div_mul]

section Complete

variable {values sum : List ℕ}

theorem length_checksumValues (values : List ℕ) : (checksumValues values).length = 6 := by
  simp [checksumValues]

theorem fiveBit_checksumValues {v : ℕ} (h : v ∈ checksumValues values) : FiveBit v := by
  rw [checksumValues, shift_and_eq_toDigits] at h
  exact lt_of_mem_toDigits (by decide) h

theorem foldl_append_eq_one_iff (hvalues : ∀ v ∈ values, FiveBit v) (hlen : sum.length = 6)
    (hsum : ∀ v ∈ sum, FiveBit v) :
    (values ++ sum).foldl polymodStep hrpChk = 1 ↔ sum = checksumValues values := by
  have hstate : values.foldl polymodStep hrpChk < 2 ^ 30 :=
    separates_polymodStep.keeps_foldl hrpChk_lt hvalues
  have hlt : (List.replicate 6 0).foldl polymodStep (values.foldl polymodStep hrpChk) ^^^ 1 <
      32 ^ 6 := by
    rw [show 32 ^ 6 = 2 ^ 30 by decide]
    apply Nat.xor_lt_two_pow _ (by decide)
    apply separates_polymodStep.keeps_foldl hstate
    intro v hv
    rw [List.eq_of_mem_replicate hv]
    exact Nat.zero_lt_succ _
  -- The word is the register run on zeros, with the six values added to what it comes to.
  have hsplit : (values ++ sum).foldl polymodStep hrpChk =
      (List.replicate 6 0).foldl polymodStep (values.foldl polymodStep hrpChk) ^^^
        number 32 sum := by
    have hlinear := xorLinear_polymodStep.foldl_eq (values.foldl polymodStep hrpChk) 0 sum
    rwa [Nat.xor_zero, hlen, foldl_polymodStep_zero hlen.le hsum, ← List.foldl_append] at hlinear
  rw [hsplit, checksumValues, shift_and_eq_toDigits]
  generalize (List.replicate 6 0).foldl polymodStep (values.foldl polymodStep hrpChk) = chk at hlt ⊢
  constructor
  · intro hone
    have hnumber : number 32 sum = chk ^^^ 1 := by
      rw [← hone, Nat.xor_xor_cancel_left]
    rw [← hnumber, ← hlen]
    exact (toDigits_number (by decide) hsum).symm
  · rintro rfl
    rw [number_toDigits, Nat.mod_eq_of_lt hlt, Nat.xor_xor_cancel_left]

end Complete

end Identity
end Microfips

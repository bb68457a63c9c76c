import Mathlib.Algebra.Order.Ring.Int

/-!
# Averages that leak a fixed part

An exponential average on integers loses a `k`-th part of its value at each step, rounded down, and
gains a `k`-th part of the sample, rounded down as well.  The rounding could carry it out of the
range of the samples.  It does not where the bounds of the range are multiples of `k`.
-/

namespace Microfips
namespace LeakyAverage

variable {k x y a b : ℤ}

/-- What is left of a value that loses its `k`-th part. -/
def leak (k x : ℤ) : ℤ :=
  x - x / k

theorem leak_mul (hk : 0 < k) (b : ℤ) : leak k (k * b) = k * b - b := by
  rw [leak, Int.mul_ediv_cancel_left b hk.ne']

theorem leak_mono (hk : 0 < k) (h : x ≤ y) : leak k x ≤ leak k y := by
  have hscale : y - x ≤ k * (y - x) := le_mul_of_one_le_left (sub_nonneg.mpr h) hk
  have hdiv : y / k ≤ x / k + (y - x) := by
    rw [← Int.add_mul_ediv_left x (y - x) hk.ne']
    exact Int.ediv_le_ediv hk (by omega)
  unfold leak
  omega

theorem leak_le (hk : 0 < k) (h : x ≤ k * b) : leak k x ≤ k * b - b :=
  (leak_mono hk h).trans_eq (leak_mul hk b)

theorem le_leak (hk : 0 < k) (h : k * a ≤ x) : k * a - a ≤ leak k x :=
  (leak_mul hk a).symm.trans_le (leak_mono hk h)

/-- The average stays below a multiple of `k` that bounds it and the sample. -/
theorem step_le (hk : 0 < k) (hb : k ∣ b) (hx : x ≤ b) (hy : y ≤ b) : leak k x + y / k ≤ b := by
  obtain ⟨c, rfl⟩ := hb
  have hleak := leak_le hk hx
  have hdiv : y / k ≤ k * c / k := Int.ediv_le_ediv hk hy
  rw [Int.mul_ediv_cancel_left c hk.ne'] at hdiv
  omega

theorem le_step (hk : 0 < k) (ha : k ∣ a) (hx : a ≤ x) (hy : a ≤ y) : a ≤ leak k x + y / k := by
  obtain ⟨c, rfl⟩ := ha
  have hleak := le_leak hk hx
  have hdiv : k * c / k ≤ y / k := Int.ediv_le_ediv hk hy
  rw [Int.mul_ediv_cancel_left c hk.ne'] at hdiv
  omega

end LeakyAverage
end Microfips

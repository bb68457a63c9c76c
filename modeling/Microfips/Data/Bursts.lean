import Mathlib.Algebra.BigOperators.Group.List.Basic
import Mathlib.Algebra.Order.Ring.Nat

/-!
# Bursts

A burst in a list of numbers is a maximal run of numbers that are not zero, and its size is their
sum.  The largest burst is found from left to right with the size of the burst that is still open.
-/

namespace Microfips
namespace Bursts

def largest (xs : List ℕ) : ℕ :=
  ((xs.splitOn 0).map List.sum).foldr max 0

def largestFrom : ℕ → List ℕ → ℕ
  | size, [] => size
  | size, x :: xs => if x = 0 then max size (largestFrom 0 xs) else largestFrom (size + x) xs

theorem largestFrom_sum (opened xs : List ℕ) :
    ((xs.splitOnPPrepend (· == 0) opened).map List.sum).foldr max 0 =
      largestFrom opened.sum xs := by
  induction xs generalizing opened with
  | nil => simp [largestFrom]
  | cons x xs ih =>
      rw [largestFrom]
      split
      · next hzero =>
          subst hzero
          rw [List.splitOnPPrepend_cons_pos rfl, List.map_cons, List.foldr_cons, List.sum_reverse]
          exact congrArg (max opened.sum) (ih [])
      · next hpos =>
          rw [List.splitOnPPrepend_cons_neg (by simpa using hpos), ih, List.sum_cons, Nat.add_comm]

theorem largest_eq (xs : List ℕ) : largest xs = largestFrom 0 xs :=
  largestFrom_sum [] xs

end Bursts
end Microfips

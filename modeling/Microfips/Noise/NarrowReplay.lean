import Microfips.Noise.Replay

/-!
# The replay window on 32-bit targets

`check` and `accept` cast differences of 64-bit counters to `usize` before they compare them with
the size of the window.  On a 32-bit target the cast drops the upper half: a counter that is a
multiple of `2 ^ 32` and less than a window away passes for one in the window.  Where no counter is
that far away, the two targets answer alike.
-/

namespace Microfips
namespace Noise
namespace ReplayWindow

/-- One counter as the receivers treat it: `accept` behind `check`. -/
def offer (w : ℕ) (r : ReplayWindow) (counter : UInt64) : ReplayWindow :=
  (checkAccept w r counter).getD r

def offerAll (w : ℕ) (counters : List UInt64) : ReplayWindow :=
  counters.foldl (offer w) new

/-- A difference of counters that is in the window on a 32-bit target only where it is in the
window. -/
def FitsNarrow (d : UInt64) : Prop :=
  d.toNat < replayWindowSize ∨ replayWindowSize ≤ d.toNat % 2 ^ 32

instance (d : UInt64) : Decidable (FitsNarrow d) :=
  inferInstanceAs (Decidable (_ ∨ _))

def apart (highest counter : UInt64) : UInt64 :=
  if highest < counter then counter - highest else highest - counter

/-- Each counter fits, from the highest one before it. -/
def Near : UInt64 → List UInt64 → Prop
  | _, [] => True
  | highest, counter :: counters =>
      -- the last counter is never accepted
      if counter = maxCounter then
        Near highest counters
      else
        FitsNarrow (apart highest counter) ∧
          Near (if highest < counter then counter else highest) counters

instance decidableNear : ∀ (highest : UInt64) (counters : List UInt64),
    Decidable (Near highest counters)
  | _, [] => isTrue trivial
  | highest, counter :: counters =>
      have := decidableNear highest counters
      have := decidableNear (if highest < counter then counter else highest) counters
      inferInstanceAs (Decidable (if counter = maxCounter then _ else _ ∧ _))

section Step

variable {r : ReplayWindow} {counter d : UInt64}

theorem asUsize_of_fitsNarrow (h : FitsNarrow d) :
    asUsize 32 d = asUsize 64 d ∨
      replayWindowSize ≤ asUsize 32 d ∧ replayWindowSize ≤ asUsize 64 d := by
  rw [asUsize_64, asUsize]
  rcases h with hnear | hfar
  · rw [replayWindowSize] at hnear
    exact Or.inl (by omega)
  · exact Or.inr ⟨hfar, hfar.trans (Nat.mod_le _ _)⟩

theorem check_narrow (h : FitsNarrow (apart r.highest counter)) :
    r.check 32 counter = r.check 64 counter := by
  unfold check
  split
  · rfl
  · split
    · rfl
    · next hle =>
        rw [apart, if_neg hle] at h
        dsimp only
        rcases asUsize_of_fitsNarrow h with heq | ⟨h32, h64⟩
        · rw [heq]
        · rw [if_pos h32, if_pos h64]

theorem accept_narrow (h : FitsNarrow (apart r.highest counter)) :
    r.accept 32 counter = r.accept 64 counter := by
  unfold accept
  by_cases hlt : r.highest < counter
  · rw [apart, if_pos hlt] at h
    rw [if_pos hlt, if_pos hlt]
    dsimp only
    rcases asUsize_of_fitsNarrow h with heq | ⟨h32, h64⟩
    · simp only [heq]
    · simp only [if_pos h32, if_pos h64]
  · rw [apart, if_neg hlt] at h
    rw [if_neg hlt, if_neg hlt]
    dsimp only
    rcases asUsize_of_fitsNarrow h with heq | ⟨h32, h64⟩
    · simp only [heq]
    · rw [replayWindowSize] at h32 h64
      rw [if_neg (by omega), if_neg (by omega)]

theorem offer_narrow (h : FitsNarrow (apart r.highest counter)) :
    r.offer 32 counter = r.offer 64 counter := by
  rw [offer, offer, checkAccept, checkAccept, check_narrow h, accept_narrow h]

theorem check_maxCounter (w : ℕ) : r.check w maxCounter = false := by
  rw [check, if_pos rfl]

theorem offer_of_check (w : ℕ) (h : r.check w counter = false) : r.offer w counter = r := by
  rw [offer, checkAccept, h]
  rfl

theorem highest_offer (h : counter ≠ maxCounter) :
    (r.offer 64 counter).highest = if r.highest < counter then counter else r.highest := by
  by_cases hcheck : r.check 64 counter = true
  · obtain ⟨r', hr'⟩ := exists_accept_of_check hcheck
    rw [offer, checkAccept, if_pos hcheck, hr', Option.getD_some]
    unfold accept at hr'
    split at hr'
    · next hlt =>
        cases hr'
        rw [if_pos hlt]
    · next hle =>
        dsimp only at hr'
        split at hr'
        · cases hr'
          rw [if_neg hle]
        · cases hr'
  · rw [offer_of_check 64 (Bool.eq_false_of_not_eq_true hcheck)]
    have hle : ¬ r.highest < counter := fun hlt =>
      hcheck (by rw [check, if_neg h, if_pos hlt])
    rw [if_neg hle]

end Step

theorem check_foldl_offer_narrow {counters : List UInt64} {counter : UInt64} {r : ReplayWindow}
    (h : Near r.highest (counters ++ [counter])) :
    (counters.foldl (offer 32) r).check 32 counter =
      (counters.foldl (offer 64) r).check 64 counter := by
  induction counters generalizing r with
  | nil =>
      rw [List.nil_append, Near] at h
      split at h
      · next hmax => rw [hmax, check_maxCounter, check_maxCounter]
      · exact check_narrow h.1
  | cons first counters ih =>
      rw [List.cons_append, Near] at h
      rw [List.foldl_cons, List.foldl_cons]
      split at h
      · next hmax =>
          rw [hmax, offer_of_check _ (check_maxCounter _), offer_of_check _ (check_maxCounter _)]
          exact ih h
      · next hmax =>
          rw [offer_narrow h.1]
          apply ih
          rw [highest_offer hmax]
          exact h.2

/-- Behind any counters, a 32-bit target answers as a 64-bit one, where no counter is so far from
the highest one before it that the cast brings it into the window. -/
theorem check_offerAll_narrow (counters : List UInt64) (counter : UInt64)
    (h : Near 0 (counters ++ [counter])) :
    (offerAll 32 counters).check 32 counter = (offerAll 64 counters).check 64 counter :=
  check_foldl_offer_narrow h

/-- Counters that are more than `2 ^ 32` apart. -/
theorem check_offerAll_narrow_far :
    (offerAll 64 [7, 8589939592, 9]).check 64 8589939591 = true ∧
      (offerAll 32 [7, 8589939592, 9]).check 32 8589939591 =
        (offerAll 64 [7, 8589939592, 9]).check 64 8589939591 :=
  ⟨by decide +kernel, check_offerAll_narrow _ _ (by decide +kernel)⟩

/-- A counter that is `2 ^ 32 + 5` below the highest one is too old, and a 32-bit target lets it
through. -/
theorem check_offerAll_diverges :
    (offerAll 32 [4294967306]).check 32 5 = true ∧
      (offerAll 64 [4294967306]).check 64 5 = false := by
  decide +kernel

end ReplayWindow
end Noise
end Microfips

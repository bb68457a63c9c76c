import Mathlib.Data.List.Basic

/-!
# Windows of a list

A list is cut into windows of a fixed width; the last one may be shorter, and an empty list has one
empty window.  The windows before any point are the list up to that point, and all of them are the
list.
-/

namespace List

variable {α : Type*} {w i : ℕ} {l : List α}

def window (w : ℕ) (l : List α) (i : ℕ) : List α :=
  (l.drop (w * i)).take w

def windowCount (w : ℕ) (l : List α) : ℕ :=
  (l.length - 1) / w + 1

theorem windowCount_pos : 0 < l.windowCount w :=
  Nat.succ_pos _

theorem window_length_le : (l.window w i).length ≤ w := by
  rw [window, length_take]
  exact Nat.min_le_left _ _

theorem take_append_window (w : ℕ) (l : List α) (i : ℕ) :
    l.take (w * i) ++ l.window w i = l.take (w * (i + 1)) := by
  rw [window, Nat.mul_add, Nat.mul_one, take_add]

theorem take_length_min (l : List α) : l.take (min l.length w) = l.take w := by
  rcases Nat.le_total l.length w with h | h
  · rw [Nat.min_eq_left h, take_length, take_of_length_le h]
  · rw [Nat.min_eq_right h]

theorem drop_length_min (l : List α) : l.drop (min l.length w) = l.drop w := by
  rcases Nat.le_total l.length w with h | h
  · rw [Nat.min_eq_left h, drop_length, drop_eq_nil_of_le h]
  · rw [Nat.min_eq_right h]

theorem mul_lt_length_of_lt (hw : 0 < w) (h : i + 1 < l.windowCount w) :
    w * (i + 1) < l.length := by
  have hdiv : i + 1 ≤ (l.length - 1) / w := Nat.lt_succ_iff.mp h
  have hmul : w * (i + 1) ≤ l.length - 1 := by
    rw [Nat.mul_comm]
    exact (Nat.le_div_iff_mul_le hw).mp hdiv
  have hpos : 0 < w * (i + 1) := Nat.mul_pos hw (Nat.succ_pos i)
  omega

theorem length_le_mul_of_eq (hw : 0 < w) (h : i + 1 = l.windowCount w) :
    l.length ≤ w * (i + 1) := by
  have hlt : l.length - 1 < w * ((l.length - 1) / w + 1) := Nat.lt_mul_div_succ _ hw
  rw [h, windowCount]
  omega

/-- The remaining list from window `i` on ends with its first window or not. -/
theorem drop_eq_nil_iff_windowCount (hw : 0 < w) (h : i < l.windowCount w) :
    l.drop (w * (i + 1)) = [] ↔ i + 1 = l.windowCount w := by
  rw [drop_eq_nil_iff]
  constructor
  · intro hle
    by_contra hne
    have hlt : i + 1 < l.windowCount w := Nat.lt_of_le_of_ne h hne
    exact absurd (mul_lt_length_of_lt hw hlt) (Nat.not_lt.mpr hle)
  · exact length_le_mul_of_eq hw

end List

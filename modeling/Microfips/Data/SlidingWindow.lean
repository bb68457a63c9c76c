import Mathlib.Data.Set.Insert
import Mathlib.Order.Lattice

/-!
# Sliding windows over counters

A sliding window remembers the highest counter it has taken and which counters it has taken
at all; it admits a counter that is above the highest one, or that lies less than the window's
size below it and has not been taken.  A window that records only its last `size` counters
admits the same ones, so an implementation is compared with this one.
-/

structure SlidingWindow where
  highest : ℕ
  taken : Set ℕ
  le_highest : ∀ c ∈ taken, c ≤ highest

namespace SlidingWindow

def empty : SlidingWindow where
  highest := 0
  taken := ∅
  le_highest := by simp

/-- The counters that a window of `size` counters lets through. -/
def Admits (size : ℕ) (w : SlidingWindow) (c : ℕ) : Prop :=
  w.highest < c ∨ (w.highest - c < size ∧ c ∉ w.taken)

def take (w : SlidingWindow) (c : ℕ) : SlidingWindow where
  highest := max w.highest c
  taken := insert c w.taken
  le_highest := by
    intro d hd
    rcases Set.mem_insert_iff.mp hd with rfl | hd
    · exact le_max_right _ _
    · exact (w.le_highest d hd).trans (le_max_left _ _)

@[simp]
theorem take_taken (w : SlidingWindow) (c : ℕ) : (w.take c).taken = insert c w.taken :=
  rfl

@[simp]
theorem take_highest (w : SlidingWindow) (c : ℕ) : (w.take c).highest = max w.highest c :=
  rfl

variable {size c : ℕ} {w : SlidingWindow}

theorem Admits.not_mem_taken (h : w.Admits size c) : c ∉ w.taken := by
  rcases h with hlt | ⟨-, hnew⟩
  · intro hc
    exact absurd (w.le_highest c hc) (not_le_of_gt hlt)
  · exact hnew

theorem Admits.of_take {d : ℕ} (h : (w.take d).Admits size c) : w.Admits size c := by
  have hle : w.highest ≤ max w.highest d := le_max_left _ _
  rcases h with hlt | ⟨hsize, hnew⟩
  · exact .inl (hle.trans_lt hlt)
  · refine .inr ⟨?_, fun hc => hnew (Set.mem_insert_of_mem d hc)⟩
    exact (Nat.sub_le_sub_right hle c).trans_lt hsize

def ofList (counters : List ℕ) : SlidingWindow :=
  counters.foldl take empty

theorem mem_foldl_take {counters : List ℕ} :
    c ∈ (counters.foldl take w).taken ↔ c ∈ w.taken ∨ c ∈ counters := by
  induction counters generalizing w with
  | nil => simp
  | cons d counters ih =>
      rw [List.foldl_cons, ih, take_taken, Set.mem_insert_iff, List.mem_cons, or_assoc,
        or_left_comm]

theorem foldl_take_highest (counters : List ℕ) (w : SlidingWindow) :
    (counters.foldl take w).highest = counters.foldl max w.highest := by
  induction counters generalizing w with
  | nil => rfl
  | cons c counters ih => simp only [List.foldl_cons, ih, take_highest]

theorem admits_ofList {counters : List ℕ} :
    (ofList counters).Admits size c ↔ counters.foldl max 0 < c ∨
      counters.foldl max 0 - c < size ∧ c ∉ counters := by
  simp [ofList, Admits, mem_foldl_take, foldl_take_highest, empty]

theorem admits_of_lt (hnew : c ∉ w.taken) (hsize : w.highest < c + size) : w.Admits size c := by
  rcases Nat.lt_or_ge w.highest c with hlt | hle
  · exact .inl hlt
  · exact .inr ⟨by omega, hnew⟩

section Admitted

open Classical

/-- Those of the counters that a window lets through when it is given one after the other. -/
noncomputable def admitted (size : ℕ) : SlidingWindow → List ℕ → List ℕ
  | _, [] => []
  | w, c :: counters =>
      if w.Admits size c then c :: (w.take c).admitted size counters else w.admitted size counters

/-- If none is behind one before it by the size of the window, they are the first of each. -/
theorem admitted_eq {counters : List ℕ} (hw : ∀ c ∈ counters, w.highest < c + size)
    (hlag : counters.Pairwise fun c d => c < d + size) :
    w.admitted size counters = (counters.filter (· ∉ w.taken)).eraseDups := by
  induction counters generalizing w with
  | nil => rfl
  | cons c counters ih =>
      obtain ⟨hc, hlag⟩ := List.pairwise_cons.mp hlag
      have hrest : ∀ d ∈ counters, w.highest < d + size :=
        fun d hd => hw d (List.mem_cons_of_mem c hd)
      by_cases hmem : c ∈ w.taken
      · rw [admitted, if_neg fun h => h.not_mem_taken hmem, ih hrest hlag,
          List.filter_cons_of_neg (by simpa using hmem)]
      · have hadmits := admits_of_lt hmem (hw c List.mem_cons_self)
        rw [admitted, if_pos hadmits, List.filter_cons_of_pos (by simpa using hmem),
          List.eraseDups_cons, List.filter_filter,
          ih (fun d hd => max_lt (hrest d hd) (hc d hd)) hlag]
        congr 3
        funext d
        rw [Bool.eq_iff_iff]
        simp [not_or]

theorem empty_admitted (hsize : 0 < size) {counters : List ℕ}
    (hlag : counters.Pairwise fun c d => c < d + size) :
    empty.admitted size counters = counters.eraseDups := by
  rw [admitted_eq (fun c _ => Nat.add_pos_right c hsize) hlag,
    List.filter_eq_self.mpr (by simp [empty])]

end Admitted

end SlidingWindow

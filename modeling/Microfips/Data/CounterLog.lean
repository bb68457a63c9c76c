import Mathlib.Data.List.Basic
import Mathlib.Data.List.Count
import Mathlib.Data.List.Nodup
import Mathlib.Algebra.Order.Ring.Nat

/-!
# Logs of keyed counters

A key that is used with a counter starting at zero leaves a log of pairs.  In a sequential log
every use of a key carries the number of its earlier uses, as a 64 bit counter.  A holder of a
key tracks the log when its counter is the number of uses so far; it may take its next counter
and the log stays sequential.  A sequential log in which no key was used more than `2 ^ 64`
times has no pair twice.
-/

namespace CounterLog

variable {K : Type*} [DecidableEq K]

def uses (log : List (K × UInt64)) (k : K) : ℕ :=
  (log.map Prod.fst).count k

/-- Every entry carries the number of the earlier uses of its key. -/
def Sequential : List (K × UInt64) → Prop
  | [] => True
  | (k, c) :: log => c = UInt64.ofNat (uses log k) ∧ Sequential log

def Tracks (log : List (K × UInt64)) (k : K) (c : UInt64) : Prop :=
  c = UInt64.ofNat (uses log k)

theorem uses_cons (e : K × UInt64) (log : List (K × UInt64)) (k : K) :
    uses (e :: log) k = uses log k + if e.1 = k then 1 else 0 := by
  simp [uses, List.count_cons]

theorem uses_le_length (log : List (K × UInt64)) (k : K) : uses log k ≤ log.length := by
  simpa [uses] using List.count_le_length (a := k) (l := log.map Prod.fst)

variable {log : List (K × UInt64)} {k : K} {c : UInt64}

theorem uses_eq_zero (h : ∀ e ∈ log, e.1 ≠ k) : uses log k = 0 := by
  apply List.count_eq_zero_of_not_mem
  intro hk
  obtain ⟨e, he, rfl⟩ := List.mem_map.mp hk
  exact h e he rfl

theorem Tracks.of_forall_ne (h : ∀ e ∈ log, e.1 ≠ k) : Tracks log k 0 := by
  rw [Tracks, uses_eq_zero h]
  rfl

theorem Tracks.take (h : Tracks log k c) : Tracks ((k, c) :: log) k (c + 1) := by
  rw [Tracks] at h
  rw [Tracks, uses_cons, h, if_pos rfl]
  simp

theorem Tracks.cons_of_ne {e : K × UInt64} (h : Tracks log k c) (hne : e.1 ≠ k) :
    Tracks (e :: log) k c := by
  rw [Tracks] at h
  rw [Tracks, uses_cons, if_neg hne, h, Nat.add_zero]

theorem Sequential.take (hlog : Sequential log) (h : Tracks log k c) : Sequential ((k, c) :: log) :=
  ⟨h, hlog⟩

theorem Sequential.exists_lt_uses (hlog : Sequential log) {e : K × UInt64} (he : e ∈ log) :
    ∃ n < uses log e.1, e.2 = UInt64.ofNat n := by
  induction log with
  | nil =>
      simp at he
  | cons x log ih =>
      obtain ⟨k, c⟩ := x
      rw [uses_cons]
      rcases List.mem_cons.mp he with rfl | he
      · exact ⟨uses log k, by simp, hlog.1⟩
      · obtain ⟨n, hn, heq⟩ := ih hlog.2 he
        exact ⟨n, by omega, heq⟩

/-- Within `2 ^ 64` uses of each key no pair of key and counter is used twice. -/
theorem Sequential.nodup (hlog : Sequential log) (hbound : ∀ k, uses log k ≤ 2 ^ 64) :
    log.Nodup := by
  induction log with
  | nil =>
      exact List.nodup_nil
  | cons x log ih =>
      obtain ⟨k, c⟩ := x
      have hle : ∀ k', uses log k' ≤ 2 ^ 64 := fun k' => by
        have h := hbound k'
        rw [uses_cons] at h
        omega
      refine List.nodup_cons.mpr ⟨fun hmem => ?_, ih hlog.2 hle⟩
      obtain ⟨n, hn, heq⟩ := hlog.2.exists_lt_uses hmem
      have hk := hbound k
      rw [uses_cons, if_pos rfl] at hk
      change n < uses log k at hn
      have hinj : UInt64.ofNat n = UInt64.ofNat (uses log k) := heq.symm.trans hlog.1
      have hmod := congrArg UInt64.toNat hinj
      simp only [UInt64.toNat_ofNat'] at hmod
      rw [Nat.mod_eq_of_lt (by omega), Nat.mod_eq_of_lt (by omega)] at hmod
      omega

end CounterLog

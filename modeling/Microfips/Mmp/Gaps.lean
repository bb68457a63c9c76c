import Microfips.Data.Bursts
import Microfips.Mmp.Estimators

/-!
# Gaps and bursts of losses

What the `GapTracker` of a receiver makes of the counters of the frames, over the intervals between
its reports.  The lost frames and those that move the expected counter on make up the distance from
the first counter.  The length of a burst is kept in 16 bits: it saturates as it adds up, but one
gap is cut to 16 bits before it is added.
-/

namespace Microfips
namespace Mmp
namespace GapTracker

section Counters

def nextCounter (expected : Option ℕ) (counter : ℕ) : ℕ :=
  max (expected.getD 0) (counter + 1)

def skipped (expected : Option ℕ) (counter : ℕ) : ℕ :=
  counter - expected.getD counter

theorem nextCounter_none (counter : ℕ) : nextCounter none counter = counter + 1 :=
  Nat.zero_max _

theorem skipped_none (counter : ℕ) : skipped none counter = 0 :=
  Nat.sub_self _

def skips : Option ℕ → List ℕ → List ℕ
  | _, [] => []
  | expected, counter :: counters =>
      skipped expected counter :: skips (some (nextCounter expected counter)) counters

def intervalSkips : Option ℕ → List (List ℕ) → List (List ℕ)
  | _, [] => []
  | expected, counters :: intervals =>
      skips expected counters ::
        intervalSkips (counters.foldl (fun e c => some (nextCounter e c)) expected) intervals

end Counters

/-- `observe` on the frames of an interval: the losses, and whether each frame moved the expected
counter on. -/
def observeAll (g : GapTracker) : List UInt64 → List (UInt64 × Bool) × GapTracker
  | [] => ([], g)
  | counter :: counters =>
      let (lost, next) := g.observe counter
      let (seen, last) := observeAll next counters
      ((lost, next.expectedNext != g.expectedNext) :: seen, last)

/-- The intervals one behind the other, each with a report: what was observed, and the reported
maximum burst lengths. -/
def observeIntervals (F : Floats) (g : GapTracker) :
    List (List UInt64) → (List (UInt64 × Bool) × List UInt16) × GapTracker
  | [] => (([], []), g)
  | counters :: intervals =>
      let (seen, g) := g.observeAll counters
      let ((_, maxBurst, _), g) := g.takeIntervalStats F
      let ((more, reports), g) := observeIntervals F g intervals
      ((seen ++ more, maxBurst :: reports), g)

section Losses

variable {F : Floats} {g : GapTracker} {counter : UInt64}

def expected (g : GapTracker) : Option ℕ :=
  g.expectedNext.map UInt64.toNat

@[simp] theorem expectedNext_finishBurst : g.finishBurst.expectedNext = g.expectedNext := by
  unfold finishBurst
  split <;> rfl

theorem observe_of_none (h : g.expectedNext = none) :
    g.observe counter = (0, { g with expectedNext := some (counter + 1) }) := by
  rw [observe, h]

theorem observe_of_some {e : UInt64} (h : g.expectedNext = some e) :
    g.observe counter =
      if e < counter then
        (counter - e, { g.addGap (counter - e) with expectedNext := some (counter + 1) })
      else if e = counter then
        (0, { g.finishBurst with expectedNext := some (counter + 1) })
      else
        (0, g.finishBurst) := by
  rw [observe, h]
  dsimp only
  by_cases hlt : e < counter
  · rw [if_pos hlt, if_pos hlt, if_pos (UInt64.le_of_lt hlt)]
  · rw [if_neg hlt, if_neg hlt]
    by_cases heq : e = counter
    · rw [if_pos heq, if_pos (heq ▸ UInt64.le_refl e)]
    · have hgt : counter < e := UInt64.lt_of_le_of_ne (UInt64.not_lt.mp hlt) (Ne.symm heq)
      rw [if_neg heq, if_neg (UInt64.not_le.mpr hgt)]

theorem toNat_succ (hmax : counter.toNat < 2 ^ 64 - 1) :
    (counter + 1).toNat = counter.toNat + 1 := by
  rw [UInt64.toNat_add]
  exact Nat.mod_eq_of_lt (by change counter.toNat + 1 < 2 ^ 64; omega)

/-- The losses that `observe` returns are the counters that the frame skips. -/
theorem toNat_observe : (g.observe counter).1.toNat = skipped g.expected counter.toNat := by
  cases h : g.expectedNext with
  | none =>
      rw [observe_of_none h, expected, h]
      simp [skipped]
  | some e =>
      rw [observe_of_some h, expected, h, skipped]
      dsimp only [Option.map_some, Option.getD_some]
      split
      · next hlt => rw [UInt64.toNat_sub_of_le _ _ (UInt64.le_of_lt hlt)]
      · next hle =>
          have hle' : counter.toNat ≤ e.toNat := by
            rwa [UInt64.not_lt, UInt64.le_iff_toNat_le] at hle
          rw [Nat.sub_eq_zero_of_le hle']
          split <;> rfl

theorem expected_observe (hmax : counter.toNat < 2 ^ 64 - 1) :
    (g.observe counter).2.expected = some (nextCounter g.expected counter.toNat) := by
  have hsucc := toNat_succ hmax
  cases h : g.expectedNext with
  | none =>
      rw [observe_of_none h]
      simp [expected, h, nextCounter, hsucc]
  | some e =>
      rw [observe_of_some h]
      simp only [expected, h, nextCounter, Option.map_some, Option.getD_some]
      split
      · next hlt =>
          rw [UInt64.lt_iff_toNat_lt] at hlt
          rw [Option.map_some, hsucc, max_eq_right (by omega)]
      · next hle =>
          rw [UInt64.not_lt, UInt64.le_iff_toNat_le] at hle
          split
          · next heq => rw [Option.map_some, hsucc, heq, max_eq_right (Nat.le_succ _)]
          · next hne =>
              have hne' : e.toNat ≠ counter.toNat := fun heq => hne (UInt64.toNat_inj.mp heq)
              rw [expectedNext_finishBurst, h, Option.map_some, max_eq_left (by omega)]

theorem expectedNext_bne (g g' : GapTracker) :
    (g.expectedNext != g'.expectedNext) = (g.expected != g'.expected) := by
  have hinj : Function.Injective (Option.map UInt64.toNat) :=
    Option.map_injective fun _ _ => UInt64.toNat_inj.mp
  rw [Bool.eq_iff_iff, bne_iff_ne, bne_iff_ne]
  exact (hinj.ne_iff).symm

def advances (expected : Option ℕ) (counter : ℕ) : Bool :=
  some (nextCounter expected counter) != expected

/-- What a frame skips, and the frame itself where it moves the expected counter on. -/
theorem nextCounter_eq (e counter : ℕ) :
    nextCounter (some e) counter =
      e + (skipped (some e) counter + (advances (some e) counter).toNat) := by
  unfold advances nextCounter skipped
  simp only [Option.getD_some]
  rcases Nat.lt_or_ge counter e with hlt | hge
  · rw [max_eq_left hlt, bne_self_eq_false, Bool.toNat_false]
    omega
  · have hne : some (counter + 1) ≠ some e := fun heq => by
      have := Option.some.inj heq
      omega
    rw [max_eq_right (by omega), bne_iff_ne.mpr hne, Bool.toNat_true]
    omega

/-- What is observed: the losses and the frames that moved the expected counter on. -/
def covered (seen : List (UInt64 × Bool)) : ℕ :=
  (seen.map fun o => o.1.toNat).sum + seen.countP Prod.snd

theorem covered_cons (o : UInt64 × Bool) (seen : List (UInt64 × Bool)) :
    covered (o :: seen) = o.1.toNat + o.2.toNat + covered seen := by
  obtain ⟨lost, moved⟩ := o
  cases moved <;> simp [covered] <;> omega

theorem covered_append (seen more : List (UInt64 × Bool)) :
    covered (seen ++ more) = covered seen + covered more := by
  simp [covered]
  omega

/-- The observed losses and advances make up the distance from one expected counter to the
other. -/
theorem expected_observeAll {e : ℕ} {counters : List UInt64} (h : g.expected = some e)
    (hmax : ∀ c ∈ counters, c.toNat < 2 ^ 64 - 1) :
    (g.observeAll counters).2.expected = some (e + covered (g.observeAll counters).1) := by
  induction counters generalizing g e with
  | nil => exact h
  | cons counter counters ih =>
      rw [List.forall_mem_cons] at hmax
      have hnext := expected_observe (g := g) hmax.1
      have hrest := ih hnext hmax.2
      rw [h, nextCounter_eq] at hrest
      rw [observeAll]
      dsimp only
      rw [hrest, covered_cons, expectedNext_bne, hnext, toNat_observe, h]
      unfold advances
      rw [Nat.add_assoc]

theorem expected_observeAll_new {first : UInt64} {counters : List UInt64} (h : g.expected = none)
    (hmax : ∀ c ∈ first :: counters, c.toNat < 2 ^ 64 - 1) :
    (g.observeAll (first :: counters)).2.expected =
      some (first.toNat + covered (g.observeAll (first :: counters)).1) := by
  rw [List.forall_mem_cons] at hmax
  have hnext := expected_observe (g := g) hmax.1
  have hrest := expected_observeAll hnext hmax.2
  rw [observeAll]
  dsimp only
  rw [hrest, covered_cons, expectedNext_bne, hnext, toNat_observe, h, skipped_none,
    nextCounter_none]
  change some (first.toNat + 1 + _) = some (first.toNat + (0 + 1 + _))
  rw [Nat.zero_add, Nat.add_assoc]

theorem expected_takeIntervalStats (F : Floats) (g : GapTracker) :
    (g.takeIntervalStats F).2.expected = g.expected := by
  simp [takeIntervalStats, expected]

theorem expected_observeIntervals {e : ℕ} {intervals : List (List UInt64)}
    (h : g.expected = some e) (hmax : ∀ c ∈ intervals.flatten, c.toNat < 2 ^ 64 - 1) :
    (g.observeIntervals F intervals).2.expected =
      some (e + covered (g.observeIntervals F intervals).1.1) := by
  induction intervals generalizing g e with
  | nil => exact h
  | cons counters intervals ih =>
      rw [List.flatten_cons, List.forall_mem_append] at hmax
      have hfirst := expected_observeAll h hmax.1
      have hrest := ih ((expected_takeIntervalStats F _).trans hfirst) hmax.2
      rw [observeIntervals]
      dsimp only
      rw [hrest, covered_append, Nat.add_assoc]

/-- Over all intervals: the losses and the advances make up the distance from the first counter to
the one that is expected next. -/
theorem expected_observeIntervals_new {intervals : List (List UInt64)} {first : UInt64}
    {rest : List UInt64} (h : g.expected = none) (hfirst : intervals.flatten = first :: rest)
    (hmax : ∀ c ∈ intervals.flatten, c.toNat < 2 ^ 64 - 1) :
    (g.observeIntervals F intervals).2.expected =
      some (first.toNat + covered (g.observeIntervals F intervals).1.1) := by
  induction intervals generalizing g with
  | nil => cases hfirst
  | cons counters intervals ih =>
      rw [observeIntervals]
      dsimp only
      rw [List.flatten_cons] at hfirst hmax
      cases counters with
      | nil => exact ih ((expected_takeIntervalStats F g).trans h) hfirst hmax
      | cons counter counters =>
          rw [List.cons_append, List.cons.injEq] at hfirst
          obtain ⟨rfl, -⟩ := hfirst
          rw [List.forall_mem_append] at hmax
          have hopen := expected_observeAll_new h hmax.1
          rw [expected_observeIntervals ((expected_takeIntervalStats F _).trans hopen) hmax.2,
            covered_append, Nat.add_assoc]

end Losses

section Bursts

open Microfips.Bursts

def maxLen : ℕ := 2 ^ 16 - 1

/-- What the tracker holds: the largest burst of the interval so far and the open burst, both
saturated.  There is no open burst before the first frame. -/
structure Holds (g : GapTracker) (best size : ℕ) : Prop where
  best_eq : g.maxBurstLen.toNat = min best maxLen
  size_eq : g.currentBurstLen.toNat = min size maxLen
  inBurst_eq : g.inBurst = decide (0 < size)
  fresh : g.expectedNext = none → size = 0

variable {F : Floats} {g : GapTracker} {counter gap : UInt64} {best size : ℕ}

theorem holds_new : new.Holds 0 0 :=
  ⟨rfl, rfl, rfl, fun _ => rfl⟩

theorem Holds.finishBurst (h : g.Holds best size) : g.finishBurst.Holds (max best size) 0 := by
  have hbest := h.best_eq
  have hsize := h.size_eq
  have hin := h.inBurst_eq
  unfold GapTracker.finishBurst
  split
  · refine ⟨?_, rfl, rfl, fun _ => rfl⟩
    dsimp only
    rw [UInt16.toNat_max, hbest, hsize]
    omega
  · next hclosed =>
      have hzero : size = 0 := by
        rw [hin] at hclosed
        simpa using hclosed
      subst hzero
      exact ⟨by rwa [Nat.max_zero], hsize, hin, h.fresh⟩

theorem Holds.addGap (h : g.Holds best size) (hpos : 0 < gap.toNat) (hgap : gap.toNat ≤ maxLen)
    (hopen : g.expectedNext ≠ none) : (g.addGap gap).Holds best (size + gap.toNat) := by
  have hsize := h.size_eq
  have hin := h.inBurst_eq
  have hlen : (UInt16.ofNat gap.toNat).toNat = gap.toNat := by
    rw [UInt16.toNat_ofNat']
    exact Nat.mod_eq_of_lt (by rw [maxLen] at hgap; omega)
  have hpos' : 0 < size + gap.toNat := by omega
  unfold GapTracker.addGap
  dsimp only
  split
  · next hburst =>
      refine ⟨h.best_eq, ?_, ?_, fun hnone => (hopen hnone).elim⟩
      · dsimp only
        rw [satAdd16, UInt16.toNat_ofNat', hlen, hsize, maxLen]
        omega
      · rw [decide_eq_true hpos', hburst]
  · next hclosed =>
      have hzero : size = 0 := by
        rw [hin] at hclosed
        simpa using hclosed
      refine ⟨h.best_eq, ?_, ?_, fun hnone => (hopen hnone).elim⟩
      · dsimp only
        rw [hlen, hzero]
        omega
      · rw [decide_eq_true hpos']

theorem Holds.withExpected (h : g.Holds best size) (next : UInt64) :
    { g with expectedNext := some next }.Holds best size :=
  ⟨h.best_eq, h.size_eq, h.inBurst_eq, fun hnone => by cases hnone⟩

theorem Holds.observe_of_eq_zero (h : g.Holds best size)
    (hskip : skipped g.expected counter.toNat = 0) :
    (g.observe counter).2.Holds (max best size) 0 := by
  rw [← toNat_observe] at hskip
  cases hnext : g.expectedNext with
  | none =>
      rw [observe_of_none hnext]
      have hzero := h.fresh hnext
      subst hzero
      rw [Nat.max_zero]
      exact h.withExpected _
  | some e =>
      rw [observe_of_some hnext] at hskip ⊢
      by_cases hlt : e < counter
      · rw [if_pos hlt, UInt64.toNat_sub_of_le _ _ (UInt64.le_of_lt hlt)] at hskip
        rw [UInt64.lt_iff_toNat_lt] at hlt
        omega
      · rw [if_neg hlt]
        split
        · exact h.finishBurst.withExpected _
        · exact h.finishBurst

theorem Holds.observe_of_pos (h : g.Holds best size)
    (hpos : 0 < skipped g.expected counter.toNat)
    (hgap : skipped g.expected counter.toNat ≤ maxLen) :
    (g.observe counter).2.Holds best (size + skipped g.expected counter.toNat) := by
  rw [← toNat_observe] at hpos hgap ⊢
  cases hnext : g.expectedNext with
  | none =>
      rw [observe_of_none hnext] at hpos
      exact (Nat.lt_irrefl 0 hpos).elim
  | some e =>
      rw [observe_of_some hnext] at hpos hgap ⊢
      by_cases hlt : e < counter
      · rw [if_pos hlt] at hpos hgap ⊢
        exact (h.addGap hpos hgap (by simp [hnext])).withExpected _
      · rw [if_neg hlt] at hpos
        split at hpos <;> exact (Nat.lt_irrefl 0 hpos).elim

/-- Behind the frames of an interval, the open burst and the largest one before make up the
largest burst. -/
theorem Holds.observeAll {counters : List UInt64} (h : g.Holds best size)
    (hmax : ∀ c ∈ counters, c.toNat < 2 ^ 64 - 1)
    (hgap : ∀ k ∈ skips g.expected (counters.map UInt64.toNat), k ≤ maxLen) :
    ∃ best' size', (g.observeAll counters).2.Holds best' size' ∧
      max best' size' =
        max best (largestFrom size (skips g.expected (counters.map UInt64.toNat))) := by
  induction counters generalizing g best size with
  | nil => exact ⟨best, size, h, rfl⟩
  | cons counter counters ih =>
      rw [List.forall_mem_cons] at hmax
      rw [List.map_cons, skips, List.forall_mem_cons] at hgap
      rw [List.map_cons, skips, largestFrom, GapTracker.observeAll]
      rw [← expected_observe hmax.1] at hgap ⊢
      rcases Nat.eq_zero_or_pos (skipped g.expected counter.toNat) with hzero | hpos
      · rw [if_pos hzero, ← max_assoc]
        exact ih (h.observe_of_eq_zero hzero) hmax.2 hgap.2
      · rw [if_neg hpos.ne']
        exact ih (h.observe_of_pos hpos hgap.1) hmax.2 hgap.2

theorem Holds.toNat_maxBurst (h : g.Holds best size) (F : Floats) :
    (g.takeIntervalStats F).1.2.1.toNat = min (max best size) maxLen :=
  h.finishBurst.best_eq

theorem Holds.takeIntervalStats (h : g.Holds best size) (F : Floats) :
    (g.takeIntervalStats F).2.Holds 0 0 :=
  ⟨rfl, h.finishBurst.size_eq, h.finishBurst.inBurst_eq, fun _ => rfl⟩

theorem expected_observeAll_foldl {counters : List UInt64}
    (hmax : ∀ c ∈ counters, c.toNat < 2 ^ 64 - 1) :
    (g.observeAll counters).2.expected =
      (counters.map UInt64.toNat).foldl (fun e c => some (nextCounter e c)) g.expected := by
  induction counters generalizing g with
  | nil => rfl
  | cons counter counters ih =>
      rw [List.forall_mem_cons] at hmax
      rw [List.map_cons, List.foldl_cons, ← expected_observe hmax.1]
      exact ih hmax.2

/-- Each interval reports its largest burst, where no frame skips more than the largest length. -/
theorem reports_observeIntervals {intervals : List (List UInt64)} (h : g.Holds 0 0)
    (hmax : ∀ c ∈ intervals.flatten, c.toNat < 2 ^ 64 - 1)
    (hgap : ∀ gaps ∈ intervalSkips g.expected (intervals.map (List.map UInt64.toNat)),
      ∀ k ∈ gaps, k ≤ maxLen) :
    (g.observeIntervals F intervals).1.2.map UInt16.toNat =
      (intervalSkips g.expected (intervals.map (List.map UInt64.toNat))).map
        fun gaps => min (largest gaps) maxLen := by
  induction intervals generalizing g with
  | nil => rfl
  | cons counters intervals ih =>
      rw [List.flatten_cons, List.forall_mem_append] at hmax
      rw [List.map_cons, intervalSkips, List.forall_mem_cons,
        ← expected_observeAll_foldl hmax.1] at hgap
      obtain ⟨best, size, hall, hlargest⟩ := h.observeAll hmax.1 hgap.1
      rw [Nat.zero_max, ← largest_eq] at hlargest
      have hexpected := expected_takeIntervalStats F (g.observeAll counters).2
      rw [List.map_cons, intervalSkips, List.map_cons, ← expected_observeAll_foldl hmax.1,
        ← hexpected, ← ih (hall.takeIntervalStats F) hmax.2 (hexpected ▸ hgap.2), ← hlargest,
        ← hall.toNat_maxBurst F]
      rfl

end Bursts

/-- Whatever the frames of the intervals: the losses and the advances make up the distance from the
first counter, and where no frame skips more than `u16::MAX` counters, each interval reports its
largest burst, saturated. -/
theorem observeIntervals_accounts (F : Floats) (intervals : List (List UInt64))
    (hmax : ∀ c ∈ intervals.flatten, c.toNat < 2 ^ 64 - 1)
    (hgap : ∀ gaps ∈ intervalSkips none (intervals.map (List.map UInt64.toNat)),
      ∀ k ∈ gaps, k ≤ 65535) :
    (∀ first rest, intervals.flatten = first :: rest →
      (new.observeIntervals F intervals).2.expectedNext.map UInt64.toNat =
        some (first.toNat +
          (((new.observeIntervals F intervals).1.1.map fun o => o.1.toNat).sum +
            (new.observeIntervals F intervals).1.1.countP Prod.snd))) ∧
      (new.observeIntervals F intervals).1.2.map UInt16.toNat =
        (intervalSkips none (intervals.map (List.map UInt64.toNat))).map
          fun gaps => min (Bursts.largest gaps) 65535 := by
  constructor
  · exact fun first rest hfirst => expected_observeIntervals_new rfl hfirst hmax
  · exact reports_observeIntervals holds_new hmax hgap

/-- A frame that is lost alone in the first interval, and a burst of two gaps in the second. -/
theorem observeIntervals_accounts_two :
    (new.observeIntervals ⟨id, fun _ => 0, fun _ _ => 0⟩ [[5, 7, 8], [11, 14, 9]]).1.2.map
        UInt16.toNat = [1, 4] ∧
      (new.observeIntervals ⟨id, fun _ => 0, fun _ _ => 0⟩
        [[5, 7, 8], [11, 14, 9]]).2.expectedNext.map UInt64.toNat = some (5 + (5 + 5)) := by
  have h := observeIntervals_accounts ⟨id, fun _ => 0, fun _ _ => 0⟩ [[5, 7, 8], [11, 14, 9]]
    (by simp) (by decide)
  constructor
  · exact h.2.trans (by decide)
  · exact (h.1 5 [7, 8, 11, 14, 9] rfl).trans (by decide)

/-- A gap of `2 ^ 16` frames is reported as none. -/
theorem observeIntervals_truncates :
    (new.observeIntervals ⟨id, fun _ => 0, fun _ _ => 0⟩ [[0, 65537]]).1.2 = [0] ∧
      intervalSkips none [[0, 65537]] = [[0, 65536]] ∧ Bursts.largest [0, 65536] = 65536 := by
  decide

end GapTracker
end Mmp
end Microfips

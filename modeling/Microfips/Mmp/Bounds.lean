import Mathlib.Order.Bounds.Defs
import Microfips.Data.LeakyAverage
import Microfips.Mmp.PeerState

/-!
# Bounds of the estimators

The jitter and the round-trip estimators of `mmp/algorithms.rs` average with shifts.  Here they are
computed once more with the overflow checks of `i64`, and shown to agree with the estimators on
integers: a round-trip sample is a number of milliseconds in microseconds, so the bounds of the
samples are multiples of eight and the averages stay within them.
-/

namespace Microfips
namespace Mmp

open LeakyAverage

def i64 (x : ℤ) : Option ℤ :=
  if -2 ^ 63 ≤ x ∧ x < 2 ^ 63 then some x else none

theorem i64_eq {x : ℤ} (hlow : -2 ^ 63 ≤ x) (hhigh : x < 2 ^ 63) : i64 x = some x := by
  rw [i64, if_pos ⟨hlow, hhigh⟩]

namespace JitterEstimator

variable {j : JitterEstimator} {delta D : ℤ}

/-- `JitterEstimator::update`, with overflow checks. -/
def updateChecked (transitDelta : ℤ) (j : JitterEstimator) : Option JitterEstimator := do
  let gain ← i64 (|transitDelta| - j.jitterQ4 / 16)
  let jitterQ4 ← i64 (j.jitterQ4 + gain)
  return { jitterQ4 }

def Within (D : ℤ) (j : JitterEstimator) : Prop :=
  0 ≤ j.jitterQ4 ∧ j.jitterQ4 ≤ 16 * D

theorem within_update (h : j.Within D) (hdelta : |delta| ≤ D) : (j.update delta).Within D := by
  have hlow := le_leak (k := 16) (a := 0) (by decide) h.1
  have hhigh := leak_le (k := 16) (by decide) h.2
  have habs := abs_nonneg delta
  unfold leak at hlow hhigh
  unfold Within update
  dsimp only
  omega

theorem updateChecked_eq (h : j.Within D) (hD : D ≤ 2 ^ 31) (hdelta : |delta| ≤ D) :
    j.updateChecked delta = some (j.update delta) := by
  have hnext := within_update h hdelta
  have habs := abs_nonneg delta
  obtain ⟨hlow, hhigh⟩ := h
  unfold Within update at hnext
  rw [updateChecked, i64_eq (by omega) (by omega), Option.bind_eq_bind, Option.bind_some,
    i64_eq (by omega) (by omega)]
  rfl

theorem toNat_jitterUs (h : j.Within D) (hD : D ≤ 2 ^ 31) :
    (j.jitterUs.toNat : ℤ) = j.jitterQ4 / 16 := by
  obtain ⟨hlow, hhigh⟩ := h
  rw [jitterUs, UInt32.toNat_ofNat']
  omega

end JitterEstimator

namespace SrttEstimator

variable {e : SrttEstimator} {m M rtt : ℤ}

/-- `SrttEstimator::update`, with overflow checks. -/
def updateChecked (rttUs : ℤ) (e : SrttEstimator) : Option SrttEstimator :=
  if e.initialized then do
    let diff ← i64 (e.srttUs - rttUs)
    let err ← i64 |diff|
    let kept ← i64 (e.rttvarUs - e.rttvarUs / 4)
    let rttvarUs ← i64 (kept + err / 4)
    let kept ← i64 (e.srttUs - e.srttUs / 8)
    let srttUs ← i64 (kept + rttUs / 8)
    return { e with rttvarUs, srttUs }
  else
    some { srttUs := rttUs, rttvarUs := rttUs.tdiv 2, initialized := true }

def varBound (m M : ℤ) : ℤ :=
  max (M / 2) (M - m)

structure Within (m M : ℤ) (e : SrttEstimator) : Prop where
  le_srtt : m ≤ e.srttUs
  srtt_le : e.srttUs ≤ M
  rttvar_nonneg : 0 ≤ e.rttvarUs
  rttvar_le : e.rttvarUs ≤ varBound m M

theorem four_dvd_varBound (hm : 8 ∣ m) (hM : 8 ∣ M) : 4 ∣ varBound m M := by
  unfold varBound
  rcases max_choice (M / 2) (M - m) with h | h <;> rw [h] <;> omega

theorem within_update_of_new (h : e.initialized = false) (h0 : 0 ≤ m) (hle : m ≤ rtt)
    (hge : rtt ≤ M) : (e.update rtt).Within m M := by
  rw [update, h, if_neg Bool.false_ne_true]
  have htdiv : rtt.tdiv 2 = rtt / 2 := Int.tdiv_eq_ediv_of_nonneg (h0.trans hle)
  constructor
  · exact hle
  · exact hge
  · dsimp only
    omega
  · apply le_max_of_le_left
    dsimp only
    omega

theorem within_update (h : e.Within m M) (hinit : e.initialized = true) (hm : 8 ∣ m) (hM : 8 ∣ M)
    (hle : m ≤ rtt) (hge : rtt ≤ M) : (e.update rtt).Within m M := by
  have herr : |e.srttUs - rtt| ≤ varBound m M := by
    have hlow := h.le_srtt
    have hhigh := h.srtt_le
    apply le_max_of_le_right
    rw [abs_le]
    omega
  rw [update, if_pos hinit]
  constructor
  · exact le_step (by decide) hm h.le_srtt hle
  · exact step_le (by decide) hM h.srtt_le hge
  · exact le_step (by decide) (dvd_zero 4) h.rttvar_nonneg (abs_nonneg _)
  · exact step_le (by decide) (four_dvd_varBound hm hM) h.rttvar_le herr

/-- The first sample sets the estimates, so they are in range once there was one. -/
def Tracks (m M : ℤ) (e : SrttEstimator) : Prop :=
  e.initialized = true → e.Within m M

theorem initialized_update (e : SrttEstimator) (rtt : ℤ) : (e.update rtt).initialized = true := by
  unfold update
  split
  · next hinit => exact hinit
  · rfl

theorem tracks_update (h : e.Tracks m M) (h0 : 0 ≤ m) (hm : 8 ∣ m) (hM : 8 ∣ M) (hle : m ≤ rtt)
    (hge : rtt ≤ M) : (e.update rtt).Tracks m M := by
  intro _
  cases hinit : e.initialized with
  | false => exact within_update_of_new hinit h0 hle hge
  | true => exact within_update (h hinit) hinit hm hM hle hge

/-- No operation overflows where the samples are far from the bounds of `i64`. -/
theorem updateChecked_eq (h : e.Tracks 0 M) (hM : M < 2 ^ 60) (hle : 0 ≤ rtt) (hge : rtt ≤ M) :
    e.updateChecked rtt = some (e.update rtt) := by
  cases hinit : e.initialized with
  | false =>
      rw [updateChecked, update, hinit]
      rfl
  | true =>
      obtain ⟨hsrtt, hsrtt', hvar, hvar'⟩ := h hinit
      have hbound : varBound 0 M ≤ M := max_le (by omega) (by omega)
      have habs := abs_nonneg (e.srttUs - rtt)
      have habs' : |e.srttUs - rtt| ≤ M := by
        rw [abs_le]
        omega
      have hkept := le_leak (k := 4) (a := 0) (by decide) hvar
      have hkept' := le_leak (k := 8) (a := 0) (by decide) hsrtt
      unfold leak at hkept hkept'
      simp only [updateChecked, update, hinit, if_true, Option.bind_eq_bind]
      rw [i64_eq (by omega) (by omega), Option.bind_some, i64_eq (by omega) (by omega),
        Option.bind_some, i64_eq (by omega) (by omega), Option.bind_some,
        i64_eq (by omega) (by omega), Option.bind_some, i64_eq (by omega) (by omega),
        Option.bind_some, i64_eq (by omega) (by omega)]
      rfl

end SrttEstimator

namespace MmpMetrics

inductive Op where
  | report (rr : ReceiverReport) (ourTimestampMs : UInt32)
  | rekey

namespace Op

def apply (m : MmpMetrics) : Op → MmpMetrics
  | report rr ourTimestampMs => m.processReceiverReport rr ourTimestampMs
  | rekey => m.resetForRekey

def sampleUs (m : MmpMetrics) : Op → Option ℤ
  | report rr ourTimestampMs =>
      if m.hasPrevRr && m.isStaleOrDuplicate rr then none
      else (rttSampleMs rr ourTimestampMs).map fun rttMs => (rttMs : ℤ) * 1000
  | rekey => none

def applyChecked (m : MmpMetrics) : Op → Option MmpMetrics
  | report rr ourTimestampMs =>
      if m.hasPrevRr && m.isStaleOrDuplicate rr then
        some m
      else do
        let srtt ← match rttSampleMs rr ourTimestampMs with
          | none => some m.srtt
          | some rttMs => do
              let rttUs ← i64 (rttMs * 1000)
              m.srtt.updateChecked rttUs
        return { m.processReceiverReport rr ourTimestampMs with srtt }
  | rekey => some m.resetForRekey

variable {m : MmpMetrics} {op : Op} {x : ℤ}

theorem srtt_apply :
    (op.apply m).srtt = ((op.sampleUs m).map fun rttUs => m.srtt.update rttUs).getD m.srtt := by
  cases op with
  | report rr ts =>
      simp only [apply, sampleUs, processReceiverReport]
      split
      · rfl
      · cases rttSampleMs rr ts <;> rfl
  | rekey => rfl

theorem of_sampleUs (h : op.sampleUs m = some x) : 1000 ∣ x ∧ 0 ≤ x ∧ x ≤ 2 ^ 32 * 1000 := by
  cases op with
  | report rr ts =>
      rw [sampleUs] at h
      split at h
      · cases h
      · obtain ⟨rttMs, hrtt, rfl⟩ := Option.map_eq_some_iff.mp h
        have hts := ts.toNat_lt
        rw [rttSampleMs] at hrtt
        split at hrtt
        · cases hrtt
        · cases hrtt
          omega
  | rekey => cases h

theorem applyChecked_eq (h : m.srtt.Tracks 0 (2 ^ 32 * 1000)) :
    op.applyChecked m = some (op.apply m) := by
  cases op with
  | report rr ts =>
      have hsample : ∀ x, (report rr ts).sampleUs m = some x → _ := fun x hx => of_sampleUs hx
      simp only [sampleUs] at hsample
      simp only [applyChecked, apply, processReceiverReport]
      split
      · rfl
      · next hfresh =>
          rw [if_neg hfresh] at hsample
          cases hrtt : rttSampleMs rr ts with
          | none => rfl
          | some rttMs =>
              obtain ⟨-, hlow, hhigh⟩ := hsample (rttMs * 1000) (by rw [hrtt]; rfl)
              simp only [Option.bind_eq_bind]
              rw [i64_eq (by omega) (by omega), Option.bind_some,
                SrttEstimator.updateChecked_eq h (by decide) hlow hhigh]
              rfl
  | rekey => rfl

end Op

def samples : MmpMetrics → List Op → List ℤ
  | _, [] => []
  | m, op :: ops => (op.sampleUs m).toList ++ samples (op.apply m) ops

section Run

variable {m : MmpMetrics} {ops : List Op} {op : Op} {low high x : ℤ}

theorem of_mem_samples (h : x ∈ samples m ops) : 1000 ∣ x ∧ 0 ≤ x ∧ x ≤ 2 ^ 32 * 1000 := by
  induction ops generalizing m with
  | nil => cases h
  | cons op ops ih =>
      rw [samples, List.mem_append, Option.mem_toList] at h
      rcases h with hsample | hrest
      · exact Op.of_sampleUs hsample
      · exact ih hrest

theorem tracks_apply (h : m.srtt.Tracks low high) (h0 : 0 ≤ low) (hlow : 8 ∣ low) (hhigh : 8 ∣ high)
    (hsample : ∀ x ∈ (op.sampleUs m).toList, low ≤ x ∧ x ≤ high) :
    (op.apply m).srtt.Tracks low high := by
  rw [Op.srtt_apply]
  cases hop : op.sampleUs m with
  | none => exact h
  | some x =>
      obtain ⟨hle, hge⟩ := hsample x (by rw [hop]; exact List.mem_singleton_self x)
      exact SrttEstimator.tracks_update h h0 hlow hhigh hle hge

theorem tracks_run (h : m.srtt.Tracks low high) (h0 : 0 ≤ low) (hlow : 8 ∣ low) (hhigh : 8 ∣ high)
    (hsamples : ∀ x ∈ samples m ops, low ≤ x ∧ x ≤ high) :
    (ops.foldl Op.apply m).srtt.Tracks low high := by
  induction ops generalizing m with
  | nil => exact h
  | cons op ops ih =>
      rw [samples, List.forall_mem_append] at hsamples
      exact ih (tracks_apply h h0 hlow hhigh hsamples.1) hsamples.2

theorem initialized_apply (h : m.srtt.initialized = true ∨ (op.sampleUs m).toList ≠ []) :
    (op.apply m).srtt.initialized = true := by
  rw [Op.srtt_apply]
  cases hop : op.sampleUs m with
  | none =>
      rw [hop] at h
      exact h.resolve_right fun hne => hne rfl
  | some x => exact SrttEstimator.initialized_update _ _

theorem initialized_run (h : m.srtt.initialized = true ∨ samples m ops ≠ []) :
    (ops.foldl Op.apply m).srtt.initialized = true := by
  induction ops generalizing m with
  | nil => exact h.resolve_right fun hne => hne rfl
  | cons op ops ih =>
      apply ih
      by_cases hrest : samples (op.apply m) ops = []
      · rw [samples, hrest, List.append_nil] at h
        exact Or.inl (initialized_apply h)
      · exact Or.inr hrest

theorem foldlM_applyChecked (h : m.srtt.Tracks 0 (2 ^ 32 * 1000)) :
    ops.foldlM Op.applyChecked m = some (ops.foldl Op.apply m) := by
  induction ops generalizing m with
  | nil => rfl
  | cons op ops ih =>
      rw [List.foldlM_cons, Op.applyChecked_eq h, List.foldl_cons, Option.bind_eq_bind,
        Option.bind_some]
      apply ih
      apply tracks_apply h le_rfl (by decide) (by decide)
      intro x hx
      exact (Op.of_sampleUs (Option.mem_toList.mp hx)).2

end Run

end MmpMetrics

namespace JitterEstimator

variable {deltas : List ℤ} {j : JitterEstimator} {D : ℤ}

def run (deltas : List ℤ) : JitterEstimator :=
  deltas.foldl (fun j delta => j.update delta) new

def runChecked (deltas : List ℤ) : Option JitterEstimator :=
  deltas.foldlM (fun j delta => j.updateChecked delta) new

theorem within_foldl (h : j.Within D) (hdeltas : ∀ d ∈ deltas, |d| ≤ D) :
    (deltas.foldl (fun j delta => j.update delta) j).Within D := by
  induction deltas generalizing j with
  | nil => exact h
  | cons d deltas ih =>
      rw [List.forall_mem_cons] at hdeltas
      exact ih (within_update h hdeltas.1) hdeltas.2

theorem foldlM_updateChecked (h : j.Within D) (hD : D ≤ 2 ^ 31) (hdeltas : ∀ d ∈ deltas, |d| ≤ D) :
    deltas.foldlM (fun j delta => j.updateChecked delta) j =
      some (deltas.foldl (fun j delta => j.update delta) j) := by
  induction deltas generalizing j with
  | nil => rfl
  | cons d deltas ih =>
      rw [List.forall_mem_cons] at hdeltas
      rw [List.foldlM_cons, updateChecked_eq h hD hdeltas.1, List.foldl_cons, Option.bind_eq_bind,
        Option.bind_some, ih (within_update h hdeltas.1) hdeltas.2]

theorem within_new (hD : 0 ≤ D) : new.Within D :=
  ⟨le_rfl, by change 0 ≤ 16 * D; omega⟩

theorem within_run (hD : 0 ≤ D) (hdeltas : ∀ d ∈ deltas, |d| ≤ D) : (run deltas).Within D :=
  within_foldl (within_new hD) hdeltas

theorem runChecked_eq (hdeltas : ∀ d ∈ deltas, |d| ≤ 2 ^ 31) :
    runChecked deltas = some (run deltas) :=
  foldlM_updateChecked (within_new (by decide)) le_rfl hdeltas

theorem toNat_jitterUs_run_le (hi32 : ∀ d ∈ deltas, |d| ≤ 2 ^ 31) {D : ℕ}
    (hdeltas : ∀ d ∈ deltas, |d| ≤ D) : (run deltas).jitterUs.toNat ≤ D := by
  have hreport := toNat_jitterUs (within_run (by decide) hi32) le_rfl
  have hwithin := within_run (Int.natCast_nonneg D) hdeltas
  unfold Within at hwithin
  omega

end JitterEstimator

namespace MmpMetrics

def run (ops : List Op) : MmpMetrics :=
  ops.foldl Op.apply new

def runChecked (ops : List Op) : Option MmpMetrics :=
  ops.foldlM Op.applyChecked new

theorem within_run {ops : List Op} {m M : ℤ} (hm : IsLeast {x | x ∈ samples new ops} m)
    (hM : IsGreatest {x | x ∈ samples new ops} M) : (run ops).srtt.Within m M := by
  have height : (8 : ℤ) ∣ 1000 := by decide
  have hm' := of_mem_samples hm.1
  have hM' := of_mem_samples hM.1
  apply tracks_run (m := new) (fun h => (Bool.false_ne_true h).elim) hm'.2.1
    (height.trans hm'.1) (height.trans hM'.1)
  · exact fun x hx => ⟨hm.2 hx, hM.2 hx⟩
  · exact initialized_run (Or.inr (List.ne_nil_of_mem hm.1))

end MmpMetrics

/-- Whatever the reports and the transit deltas: the estimates of the round trip are in the range of
the samples, the jitter is at most the largest delta, and no operation overflows or loses bits. -/
theorem estimates_bounded (ops : List MmpMetrics.Op) (deltas : List ℤ)
    (hdeltas : ∀ d ∈ deltas, -2 ^ 31 ≤ d ∧ d < 2 ^ 31) :
    (∀ m M, IsLeast {x | x ∈ MmpMetrics.samples .new ops} m →
      IsGreatest {x | x ∈ MmpMetrics.samples .new ops} M →
        (m ≤ (MmpMetrics.run ops).srtt.srttUs ∧ (MmpMetrics.run ops).srtt.srttUs ≤ M) ∧
          0 ≤ (MmpMetrics.run ops).srtt.rttvarUs ∧
            (MmpMetrics.run ops).srtt.rttvarUs ≤ max (M / 2) (M - m)) ∧
    MmpMetrics.runChecked ops = some (MmpMetrics.run ops) ∧
    (∀ D : ℕ, (∀ d ∈ deltas, |d| ≤ D) → (JitterEstimator.run deltas).jitterUs.toNat ≤ D) ∧
    JitterEstimator.runChecked deltas = some (JitterEstimator.run deltas) ∧
    ((JitterEstimator.run deltas).jitterUs.toNat : ℤ) =
      (JitterEstimator.run deltas).jitterQ4 / 16 := by
  have hi32 : ∀ d ∈ deltas, |d| ≤ 2 ^ 31 := by
    intro d hd
    have hrange := hdeltas d hd
    rw [abs_le]
    omega
  refine ⟨?_, ?_, ?_, ?_, ?_⟩
  · intro m M hm hM
    obtain ⟨hsrtt, hsrtt', hvar, hvar'⟩ := MmpMetrics.within_run hm hM
    exact ⟨⟨hsrtt, hsrtt'⟩, hvar, hvar'⟩
  · exact MmpMetrics.foldlM_applyChecked fun h => (Bool.false_ne_true h).elim
  · exact fun D hD => JitterEstimator.toNat_jitterUs_run_le hi32 hD
  · exact JitterEstimator.runChecked_eq hi32
  · exact JitterEstimator.toNat_jitterUs (JitterEstimator.within_run (by decide) hi32) le_rfl

def MmpMetrics.Op.echo (packets : UInt64) (timestampEcho ourTimestampMs : UInt32) : Op :=
  .report {
    highestCounter := packets
    cumulativePacketsRecv := packets
    cumulativeBytesRecv := packets * 100
    timestampEcho
    dwellTime := 0
    maxBurstLoss := 0
    meanBurstLoss := 0
    jitter := 0
    ecnCeCount := 0
    owdTrend := 0
    burstLossCount := 0
    cumulativeReorderCount := 0
    intervalPacketsRecv := 1
    intervalBytesRecv := 100 } ourTimestampMs

open MmpMetrics.Op in
/-- Round trips of 100 and 50 milliseconds around a rekey, and deltas of both signs. -/
theorem estimates_bounded_two :
    MmpMetrics.samples .new [echo 1 1000 1100, .rekey, echo 2 2000 2050] = [100000, 50000] ∧
      50000 ≤ (MmpMetrics.run [echo 1 1000 1100, .rekey, echo 2 2000 2050]).srtt.srttUs ∧
      (MmpMetrics.run [echo 1 1000 1100, .rekey, echo 2 2000 2050]).srtt.rttvarUs ≤ 50000 ∧
      (JitterEstimator.run [1000, -3]).jitterUs.toNat ≤ 1000 := by
  have hsamples :
      MmpMetrics.samples .new [echo 1 1000 1100, .rekey, echo 2 2000 2050] = [100000, 50000] := by
    decide
  obtain ⟨hsrtt, -, hjitter, -, -⟩ := estimates_bounded
    [echo 1 1000 1100, .rekey, echo 2 2000 2050] [1000, -3] (by decide)
  rw [hsamples] at hsrtt
  obtain ⟨⟨hle, -⟩, -, hvar⟩ := hsrtt 50000 100000
    ⟨by simp, fun x hx => by simp at hx; omega⟩ ⟨by simp, fun x hx => by simp at hx; omega⟩
  exact ⟨hsamples, hle, hvar, hjitter 1000 (by decide)⟩

end Mmp
end Microfips

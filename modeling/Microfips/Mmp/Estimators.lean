import Microfips.Mmp.Report

/-!
# MMP estimators

The building blocks of the MMP measurements: the jitter and round-trip estimators and the trend
window of `microfips-core`, file `mmp/algorithms.rs`, the gap tracker of `mmp/receiver.rs`, and
the pace at which reports are sent.  Integers are signed 64-bit values in the program and stay far
from its bounds; where the program computes with `f64` the result is a parameter.
-/

namespace Microfips
namespace Mmp

/-- The results that the program computes with `f64`. -/
structure Floats where
  /-- `(srtt_us as f64 / 1000.0 * 1000.0) as i64`. -/
  viaMillis : ℤ → ℤ
  /-- `trend_us_per_sec`, on the samples from the oldest to the newest. -/
  trendUsPerSec : List (UInt32 × ℤ) → ℤ
  /-- `(total_burst_len as f64 / count as f64 * 256.0) as u16`. -/
  meanBurst : ℕ → ℕ → UInt16

structure JitterEstimator where
  jitterQ4 : ℤ
  deriving DecidableEq

namespace JitterEstimator

def new : JitterEstimator where
  jitterQ4 := 0

def update (transitDelta : ℤ) (j : JitterEstimator) : JitterEstimator where
  jitterQ4 := j.jitterQ4 + (|transitDelta| - j.jitterQ4 / 16)

def jitterUs (j : JitterEstimator) : UInt32 :=
  UInt32.ofNat ((j.jitterQ4 / 16) % 2 ^ 32).toNat

end JitterEstimator

structure SrttEstimator where
  srttUs : ℤ
  rttvarUs : ℤ
  initialized : Bool
  deriving DecidableEq

namespace SrttEstimator

def new : SrttEstimator where
  srttUs := 0
  rttvarUs := 0
  initialized := false

def update (rttUs : ℤ) (e : SrttEstimator) : SrttEstimator :=
  if e.initialized then
    { e with
      rttvarUs := e.rttvarUs - e.rttvarUs / 4 + |e.srttUs - rttUs| / 4
      srttUs := e.srttUs - e.srttUs / 8 + rttUs / 8 }
  else
    { srttUs := rttUs, rttvarUs := rttUs.tdiv 2, initialized := true }

end SrttEstimator

def owdWindowSize : ℕ := 32

/-- `OwdTrendDetector`: the samples in its ring, from the oldest to the newest. -/
abbrev OwdTrendDetector : Type := List (UInt32 × ℤ)

def OwdTrendDetector.push (seq : UInt32) (owdUs : ℤ) (d : OwdTrendDetector) : OwdTrendDetector :=
  (d ++ [(seq, owdUs)]).drop (d.length + 1 - owdWindowSize)

def OwdTrendDetector.trend (F : Floats) (d : OwdTrendDetector) : ℤ :=
  if d.length < 2 then 0 else F.trendUsPerSec d

def satAdd16 (a b : UInt16) : UInt16 :=
  UInt16.ofNat (min (a.toNat + b.toNat) (2 ^ 16 - 1))

def satAdd32 (a : UInt32) (n : ℕ) : UInt32 :=
  UInt32.ofNat (min (a.toNat + n) (2 ^ 32 - 1))

structure GapTracker where
  expectedNext : Option UInt64
  inBurst : Bool
  currentBurstLen : UInt16
  burstCount : UInt32
  maxBurstLen : UInt16
  totalBurstLen : UInt64
  deriving DecidableEq

namespace GapTracker

def new : GapTracker where
  expectedNext := none
  inBurst := false
  currentBurstLen := 0
  burstCount := 0
  maxBurstLen := 0
  totalBurstLen := 0

def finishBurst (g : GapTracker) : GapTracker :=
  if g.inBurst then
    { g with
      maxBurstLen := max g.maxBurstLen g.currentBurstLen
      totalBurstLen := g.totalBurstLen + UInt64.ofNat g.currentBurstLen.toNat
      inBurst := false
      currentBurstLen := 0 }
  else
    g

def addGap (gap : UInt64) (g : GapTracker) : GapTracker :=
  let len := UInt16.ofNat gap.toNat
  if g.inBurst then
    { g with currentBurstLen := satAdd16 g.currentBurstLen len }
  else
    { g with inBurst := true, currentBurstLen := len, burstCount := g.burstCount + 1 }

def observe (counter : UInt64) (g : GapTracker) : UInt64 × GapTracker :=
  match g.expectedNext with
  | none => (0, { g with expectedNext := some (counter + 1) })
  | some expected =>
      let r := if expected < counter then (counter - expected, g.addGap (counter - expected))
        else (0, g.finishBurst)
      (r.1, if expected ≤ counter then { r.2 with expectedNext := some (counter + 1) } else r.2)

def takeIntervalStats (F : Floats) (g : GapTracker) : (UInt32 × UInt16 × UInt16) × GapTracker :=
  let g := g.finishBurst
  let mean := if 0 < g.burstCount then F.meanBurst g.totalBurstLen.toNat g.burstCount.toNat else 0
  ((g.burstCount, g.maxBurstLen, mean),
    { g with burstCount := 0, maxBurstLen := 0, totalBurstLen := 0 })

end GapTracker

def coldStartIntervalMs : ℕ := 200

def minReportIntervalMs : ℕ := 500

def maxReportIntervalMs : ℕ := 3000

def coldStartSamples : ℕ := 8

/-- `report_interval` and `srtt_sample_count` of a sender or receiver.  The interval starts at the
one of a cold start and is never set below it. -/
structure ReportPace where
  intervalMs : ℕ
  srttSampleCount : ℕ
  le_interval : coldStartIntervalMs ≤ intervalMs

namespace ReportPace

def new : ReportPace where
  intervalMs := coldStartIntervalMs
  srttSampleCount := 0
  le_interval := Nat.le_refl _

/-- `update_report_interval_from_srtt`; the sender reports every two round trips, the receiver
every one. -/
def updateFromSrtt (roundTrips : ℕ) (srttUs : ℤ) (p : ReportPace) : ReportPace :=
  let count := min (p.srttSampleCount + 1) (2 ^ 32 - 1)
  let floor := if count ≤ coldStartSamples then coldStartIntervalMs else minReportIntervalMs
  if srttUs ≤ 0 then
    { p with srttSampleCount := count }
  else
    { intervalMs := max floor (min ((srttUs.toNat * roundTrips) / 1000) maxReportIntervalMs)
      srttSampleCount := count
      le_interval := le_max_of_le_left (by
        dsimp only [floor]
        split
        · exact Nat.le_refl _
        · decide) }

end ReportPace
end Mmp
end Microfips

import Microfips.Mmp.Estimators
import Microfips.Node.Interface

/-!
# The MMP measurements of a peer

`SenderState`, `ReceiverState` and the part of `MmpMetrics` that the node depends on, of
`microfips-protocol`, directory `mmp`, put together as the operations a node calls.
`duration_since` is a difference of instants: the clock does not run backwards.
-/

namespace Microfips
namespace Mmp

open Node Wire

structure SenderState where
  cumulativePacketsSent : UInt64
  cumulativeBytesSent : UInt64
  intervalStartCounter : UInt64
  intervalStartTimestamp : UInt32
  intervalBytesSent : UInt32
  lastCounter : UInt64
  lastTimestamp : UInt32
  intervalHasData : Bool
  lastReportTime : Option ℕ
  pace : ReportPace

namespace SenderState

def new : SenderState where
  cumulativePacketsSent := 0
  cumulativeBytesSent := 0
  intervalStartCounter := 0
  intervalStartTimestamp := 0
  intervalBytesSent := 0
  lastCounter := 0
  lastTimestamp := 0
  intervalHasData := false
  lastReportTime := none
  pace := ReportPace.new

def recordSent (counter : UInt64) (timestamp : UInt32) (bytes : ℕ) (s : SenderState) :
    SenderState :=
  { s with
    intervalStartCounter := if s.intervalHasData then s.intervalStartCounter else counter
    intervalStartTimestamp := if s.intervalHasData then s.intervalStartTimestamp else timestamp
    intervalHasData := true
    lastCounter := counter
    lastTimestamp := timestamp
    intervalBytesSent := satAdd32 s.intervalBytesSent (bytes % 2 ^ 32)
    cumulativePacketsSent := s.cumulativePacketsSent + 1
    cumulativeBytesSent := s.cumulativeBytesSent + UInt64.ofNat bytes }

def buildReport (now : ℕ) (s : SenderState) : Option SenderReport × SenderState :=
  if s.intervalHasData then
    (some {
      intervalStartCounter := s.intervalStartCounter
      intervalEndCounter := s.lastCounter
      intervalStartTimestamp := s.intervalStartTimestamp
      intervalEndTimestamp := s.lastTimestamp
      intervalBytesSent := s.intervalBytesSent
      cumulativePacketsSent := s.cumulativePacketsSent
      cumulativeBytesSent := s.cumulativeBytesSent },
    { s with intervalHasData := false, intervalBytesSent := 0, lastReportTime := some now })
  else
    (none, s)

end SenderState

def rekeyJitterGraceSecs : ℕ := 15

structure ReceiverState where
  cumulativePacketsRecv : UInt64
  cumulativeBytesRecv : UInt64
  cumulativeReorderCount : UInt64
  highestCounter : UInt64
  intervalPacketsRecv : UInt32
  intervalBytesRecv : UInt32
  jitter : JitterEstimator
  owdTrend : OwdTrendDetector
  owdSeq : UInt32
  gapTracker : GapTracker
  ecnCeCount : UInt32
  lastSenderTimestamp : UInt32
  lastRecvTime : Option ℕ
  rekeyJitterGraceUntil : Option ℕ
  lastReportTime : Option ℕ
  intervalHasData : Bool
  pace : ReportPace

namespace ReceiverState

def new : ReceiverState where
  cumulativePacketsRecv := 0
  cumulativeBytesRecv := 0
  cumulativeReorderCount := 0
  highestCounter := 0
  intervalPacketsRecv := 0
  intervalBytesRecv := 0
  jitter := JitterEstimator.new
  owdTrend := []
  owdSeq := 0
  gapTracker := GapTracker.new
  ecnCeCount := 0
  lastSenderTimestamp := 0
  lastRecvTime := none
  rekeyJitterGraceUntil := none
  lastReportTime := none
  intervalHasData := false
  pace := ReportPace.new

def resetForRekey (now : ℕ) (s : ReceiverState) : ReceiverState :=
  { s with
    highestCounter := 0
    cumulativeReorderCount := 0
    gapTracker := GapTracker.new
    intervalPacketsRecv := 0
    intervalBytesRecv := 0
    jitter := JitterEstimator.new
    owdTrend := []
    owdSeq := 0
    lastSenderTimestamp := 0
    lastRecvTime := none
    rekeyJitterGraceUntil := some (now + fromSecs rekeyJitterGraceSecs)
    ecnCeCount := 0
    intervalHasData := false }

def recordJitter (senderTimestampMs : UInt32) (now : ℕ) (s : ReceiverState) : ReceiverState :=
  match s.rekeyJitterGraceUntil with
  | some deadline => if now < deadline then s else sample { s with rekeyJitterGraceUntil := none }
  | none => sample s
where
  /-- The sample itself. -/
  sample (s : ReceiverState) : ReceiverState :=
    match s.lastRecvTime with
    | none => s
    | some prevRecv =>
        let recvDeltaUs : ℤ := ((now - prevRecv : ℕ) : ℤ)
        let sendDeltaUs : ℤ := senderTimestampMs.toNat * 1000 - s.lastSenderTimestamp.toNat * 1000
        { s with jitter := s.jitter.update (Int.bmod (recvDeltaUs - sendDeltaUs) (2 ^ 32)) }

/-- `ReceiverState::record_recv`; the node calls it without the CE flag. -/
def recordRecv (counter : UInt64) (senderTimestampMs : UInt32) (bytes now : ℕ)
    (s : ReceiverState) : ReceiverState :=
  let s := { s with
    intervalHasData := true
    cumulativePacketsRecv := s.cumulativePacketsRecv + 1
    cumulativeBytesRecv := s.cumulativeBytesRecv + UInt64.ofNat bytes
    intervalPacketsRecv := satAdd32 s.intervalPacketsRecv 1
    intervalBytesRecv := satAdd32 s.intervalBytesRecv (bytes % 2 ^ 32)
    cumulativeReorderCount :=
      if counter < s.highestCounter then s.cumulativeReorderCount + 1 else s.cumulativeReorderCount
    highestCounter := if counter < s.highestCounter then s.highestCounter else counter
    gapTracker := (s.gapTracker.observe counter).2 }
  let s := s.recordJitter senderTimestampMs now
  let owdUs : ℤ := ((now - s.lastRecvTime.getD now : ℕ) : ℤ) - senderTimestampMs.toNat * 1000
  { s with
    owdSeq := s.owdSeq + 1
    owdTrend := s.owdTrend.push (s.owdSeq + 1) owdUs
    lastSenderTimestamp := senderTimestampMs
    lastRecvTime := some now }

def echo (now : ℕ) (s : ReceiverState) : UInt32 × UInt16 :=
  match s.lastRecvTime with
  | none => (0, 0)
  | some t =>
      if 2 ^ 16 - 1 < asMillis (now - t) then (0, UInt16.ofNat (2 ^ 16 - 1))
      else (s.lastSenderTimestamp, UInt16.ofNat (asMillis (now - t)))

def buildReport (F : Floats) (now : ℕ) (s : ReceiverState) :
    Option ReceiverReport × ReceiverState :=
  if s.intervalHasData then
    let (burstCount, maxBurst, meanBurst) := (s.gapTracker.takeIntervalStats F).1
    (some {
      highestCounter := s.highestCounter
      cumulativePacketsRecv := s.cumulativePacketsRecv
      cumulativeBytesRecv := s.cumulativeBytesRecv
      timestampEcho := (s.echo now).1
      dwellTime := (s.echo now).2
      maxBurstLoss := maxBurst
      meanBurstLoss := meanBurst
      jitter := s.jitter.jitterUs
      ecnCeCount := s.ecnCeCount
      owdTrend := s.owdTrend.trend F
      burstLossCount := burstCount
      cumulativeReorderCount := UInt32.ofNat s.cumulativeReorderCount.toNat
      intervalPacketsRecv := s.intervalPacketsRecv
      intervalBytesRecv := s.intervalBytesRecv },
    { s with
      gapTracker := (s.gapTracker.takeIntervalStats F).2
      intervalPacketsRecv := 0
      intervalBytesRecv := 0
      intervalHasData := false
      lastReportTime := some now })
  else
    (none, s)

def shouldSendReport (now : ℕ) (s : ReceiverState) : Bool :=
  s.intervalHasData &&
    match s.lastReportTime with
    | none => true
    | some last => fromMillis s.pace.intervalMs ≤ now - last

end ReceiverState

/-- `MmpMetrics`: the round-trip estimate and the counters of the last report that was taken. -/
structure MmpMetrics where
  srtt : SrttEstimator
  prevRrCumPackets : UInt64
  prevRrCumBytes : UInt64
  prevRrHighestCounter : UInt64
  prevRrEcnCe : UInt32
  prevRrReorder : UInt32
  hasPrevRr : Bool
  deriving DecidableEq

namespace MmpMetrics

def new : MmpMetrics where
  srtt := SrttEstimator.new
  prevRrCumPackets := 0
  prevRrCumBytes := 0
  prevRrHighestCounter := 0
  prevRrEcnCe := 0
  prevRrReorder := 0
  hasPrevRr := false

def resetForRekey (m : MmpMetrics) : MmpMetrics :=
  { MmpMetrics.new with srtt := m.srtt }

def isStaleOrDuplicate (rr : ReceiverReport) (m : MmpMetrics) : Bool :=
  (rr.highestCounter < m.prevRrHighestCounter || rr.cumulativePacketsRecv < m.prevRrCumPackets ||
      rr.cumulativeBytesRecv < m.prevRrCumBytes || rr.ecnCeCount < m.prevRrEcnCe ||
      rr.cumulativeReorderCount < m.prevRrReorder) ||
    (rr.highestCounter == m.prevRrHighestCounter &&
      rr.cumulativePacketsRecv == m.prevRrCumPackets &&
      rr.cumulativeBytesRecv == m.prevRrCumBytes && rr.ecnCeCount == m.prevRrEcnCe &&
      rr.cumulativeReorderCount == m.prevRrReorder)

/-- The round-trip sample in a report, in milliseconds: `checked_add` and `checked_sub`. -/
def rttSampleMs (rr : ReceiverReport) (ourTimestampMs : UInt32) : Option ℕ :=
  let done := rr.timestampEcho.toNat + rr.dwellTime.toNat
  if rr.timestampEcho = 0 ∨ 2 ^ 32 ≤ done ∨ ourTimestampMs.toNat ≤ done then none
  else some (ourTimestampMs.toNat - done)

def processReceiverReport (rr : ReceiverReport) (ourTimestampMs : UInt32) (m : MmpMetrics) :
    MmpMetrics :=
  if m.hasPrevRr && m.isStaleOrDuplicate rr then
    m
  else
    { srtt := match rttSampleMs rr ourTimestampMs with
        | none => m.srtt
        | some rttMs => m.srtt.update (rttMs * 1000)
      prevRrCumPackets := rr.cumulativePacketsRecv
      prevRrCumBytes := rr.cumulativeBytesRecv
      prevRrHighestCounter := rr.highestCounter
      prevRrEcnCe := rr.ecnCeCount
      prevRrReorder := rr.cumulativeReorderCount
      hasPrevRr := true }

end MmpMetrics

structure MmpPeerState where
  sender : SenderState
  receiver : ReceiverState
  metrics : MmpMetrics

namespace MmpPeerState

def new : MmpPeerState where
  sender := SenderState.new
  receiver := ReceiverState.new
  metrics := MmpMetrics.new

def onSenderReport (F : Floats) (build : Build) (now : ℕ) (payload : Bytes) (m : MmpPeerState) :
    Option Bytes × MmpPeerState :=
  match SenderReport.decode payload build with
  | none => (none, m)
  | some _ =>
      if m.receiver.shouldSendReport now then
        let r := m.receiver.buildReport F now
        (r.1.map fun rr => rr.encode build, { m with receiver := r.2 })
      else
        (none, m)

def onReceiverReport (F : Floats) (build : Build) (now : ℕ) (payload : Bytes) (m : MmpPeerState) :
    MmpPeerState :=
  match ReceiverReport.decode payload build with
  | none => m
  | some rr =>
      let metrics := m.metrics.processReceiverReport rr (UInt32.ofNat (asMillis now))
      if metrics.srtt.initialized then
        let srttUs := F.viaMillis metrics.srtt.srttUs
        { sender := { m.sender with pace := m.sender.pace.updateFromSrtt 2 srttUs }
          receiver := { m.receiver with pace := m.receiver.pace.updateFromSrtt 1 srttUs }
          metrics }
      else
        { m with metrics }

def ops (F : Floats) (build : Build) : MmpOps MmpPeerState where
  resetForRekey now m :=
    { m with receiver := m.receiver.resetForRekey now, metrics := m.metrics.resetForRekey }
  recordRecv counter ts bytes now m :=
    { m with receiver := m.receiver.recordRecv counter ts bytes now }
  recordSent counter ts bytes m := { m with sender := m.sender.recordSent counter ts bytes }
  onSenderReport := onSenderReport F build
  onReceiverReport := onReceiverReport F build
  buildSenderReport now m :=
    let r := m.sender.buildReport now
    (r.1.map fun sr => sr.encode build, { m with sender := r.2 })
  buildReceiverReport now m :=
    let r := m.receiver.buildReport F now
    (r.1.map fun rr => rr.encode build, { m with receiver := r.2 })
  senderReportInterval m := fromMillis m.sender.pace.intervalMs
  receiverReportInterval m := fromMillis m.receiver.pace.intervalMs

theorem senderReportInterval_pos (F : Floats) (build : Build) (m : MmpPeerState) :
    0 < (ops F build).senderReportInterval m := by
  have h := m.sender.pace.le_interval
  simp only [ops, fromMillis, ticksPerMilli, coldStartIntervalMs] at h ⊢
  omega

theorem receiverReportInterval_pos (F : Floats) (build : Build) (m : MmpPeerState) :
    0 < (ops F build).receiverReportInterval m := by
  have h := m.receiver.pace.le_interval
  simp only [ops, fromMillis, ticksPerMilli, coldStartIntervalMs] at h ⊢
  omega

end MmpPeerState
end Mmp
end Microfips

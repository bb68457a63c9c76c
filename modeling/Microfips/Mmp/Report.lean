import Microfips.Wire.Negotiation

/-!
# MMP reports

The sender and receiver reports of `microfips-core`, file `mmp/report.rs`, and their wire forms.
On the XX wire the reports are slim: some fields are not sent and come back as zero.
-/

namespace Microfips
namespace Mmp

open Wire

def senderReportBodySize : Build → ℕ
  | .ik => 47
  | .xx => 19

def receiverReportBodySize : Build → ℕ
  | .ik => 67
  | .xx => 53

def readNat (i j : ℕ) (b : Bytes) : ℕ :=
  Bytes.toNat (Bytes.slice i j b)

def int32Bytes (x : ℤ) : Bytes :=
  Bytes.ofNat 4 (x % 2 ^ 32).toNat

structure SenderReport where
  intervalStartCounter : UInt64
  intervalEndCounter : UInt64
  intervalStartTimestamp : UInt32
  intervalEndTimestamp : UInt32
  intervalBytesSent : UInt32
  cumulativePacketsSent : UInt64
  cumulativeBytesSent : UInt64
  deriving DecidableEq

namespace SenderReport

def encode (r : SenderReport) : Build → Bytes
  | .ik =>
      0x01 :: List.replicate 3 0 ++ Bytes.ofNat 8 r.intervalStartCounter.toNat ++
        Bytes.ofNat 8 r.intervalEndCounter.toNat ++ Bytes.ofNat 4 r.intervalStartTimestamp.toNat ++
        Bytes.ofNat 4 r.intervalEndTimestamp.toNat ++ Bytes.ofNat 4 r.intervalBytesSent.toNat ++
        Bytes.ofNat 8 r.cumulativePacketsSent.toNat ++ Bytes.ofNat 8 r.cumulativeBytesSent.toNat
  | .xx =>
      0 :: Bytes.ofNat 2 16 ++
        Bytes.ofNat 4 (r.intervalEndCounter.toNat - r.intervalStartCounter.toNat) ++
        Bytes.ofNat 4 r.intervalBytesSent.toNat ++ Bytes.ofNat 8 r.cumulativePacketsSent.toNat

def decode (payload : Bytes) : Build → Option SenderReport
  | .ik =>
      if payload.length < senderReportBodySize .ik then
        none
      else
        let p := payload.drop 3
        some {
          intervalStartCounter := UInt64.ofNat (readNat 0 8 p)
          intervalEndCounter := UInt64.ofNat (readNat 8 16 p)
          intervalStartTimestamp := UInt32.ofNat (readNat 16 20 p)
          intervalEndTimestamp := UInt32.ofNat (readNat 20 24 p)
          intervalBytesSent := UInt32.ofNat (readNat 24 28 p)
          cumulativePacketsSent := UInt64.ofNat (readNat 28 36 p)
          cumulativeBytesSent := UInt64.ofNat (readNat 36 44 p) }
  | .xx =>
      if payload.length < senderReportBodySize .xx then
        none
      else if payload.headD 0 ≠ 0 ∨ payload.length < 3 + 16 then
        none
      else
        let p := payload.drop 3
        some {
          intervalStartCounter := 0
          intervalEndCounter := UInt64.ofNat (readNat 0 4 p)
          intervalStartTimestamp := 0
          intervalEndTimestamp := 0
          intervalBytesSent := UInt32.ofNat (readNat 4 8 p)
          cumulativePacketsSent := UInt64.ofNat (readNat 8 16 p)
          cumulativeBytesSent := 0 }

theorem encode_length (r : SenderReport) (build : Build) : (r.encode build).length ≤ 48 := by
  cases build <;> simp [encode]

/-- What the XX wire carries of a report: the counters of its interval as their difference. -/
def slim (r : SenderReport) : SenderReport where
  intervalStartCounter := 0
  intervalEndCounter :=
    UInt64.ofNat ((r.intervalEndCounter.toNat - r.intervalStartCounter.toNat) % 2 ^ 32)
  intervalStartTimestamp := 0
  intervalEndTimestamp := 0
  intervalBytesSent := r.intervalBytesSent
  cumulativePacketsSent := r.cumulativePacketsSent
  cumulativeBytesSent := 0

theorem decode_encode_xx (r : SenderReport) : decode (r.encode .xx) .xx = some r.slim := by
  simp [encode, decode, slim, senderReportBodySize, readNat, Bytes.slice, List.drop_append,
    List.drop_of_length_le, List.take_of_length_le, Bytes.toNat_ofNat]

end SenderReport

structure ReceiverReport where
  highestCounter : UInt64
  cumulativePacketsRecv : UInt64
  cumulativeBytesRecv : UInt64
  timestampEcho : UInt32
  dwellTime : UInt16
  maxBurstLoss : UInt16
  meanBurstLoss : UInt16
  jitter : UInt32
  ecnCeCount : UInt32
  owdTrend : ℤ
  burstLossCount : UInt32
  cumulativeReorderCount : UInt32
  intervalPacketsRecv : UInt32
  intervalBytesRecv : UInt32
  deriving DecidableEq

namespace ReceiverReport

def encode (r : ReceiverReport) : Build → Bytes
  | .ik =>
      0x02 :: List.replicate 3 0 ++ Bytes.ofNat 8 r.highestCounter.toNat ++
        Bytes.ofNat 8 r.cumulativePacketsRecv.toNat ++ Bytes.ofNat 8 r.cumulativeBytesRecv.toNat ++
        Bytes.ofNat 4 r.timestampEcho.toNat ++ Bytes.ofNat 2 r.dwellTime.toNat ++
        Bytes.ofNat 2 r.maxBurstLoss.toNat ++ Bytes.ofNat 2 r.meanBurstLoss.toNat ++
        List.replicate 2 0 ++ Bytes.ofNat 4 r.jitter.toNat ++ Bytes.ofNat 4 r.ecnCeCount.toNat ++
        int32Bytes r.owdTrend ++ Bytes.ofNat 4 r.burstLossCount.toNat ++
        Bytes.ofNat 4 r.cumulativeReorderCount.toNat ++ Bytes.ofNat 4 r.intervalPacketsRecv.toNat ++
        Bytes.ofNat 4 r.intervalBytesRecv.toNat
  | .xx =>
      0 :: Bytes.ofNat 2 50 ++ Bytes.ofNat 4 r.timestampEcho.toNat ++
        Bytes.ofNat 2 r.dwellTime.toNat ++ Bytes.ofNat 8 r.highestCounter.toNat ++
        Bytes.ofNat 8 r.cumulativePacketsRecv.toNat ++ Bytes.ofNat 8 r.cumulativeBytesRecv.toNat ++
        Bytes.ofNat 4 r.jitter.toNat ++ Bytes.ofNat 4 r.ecnCeCount.toNat ++
        int32Bytes r.owdTrend ++ Bytes.ofNat 4 r.burstLossCount.toNat ++
        Bytes.ofNat 4 r.cumulativeReorderCount.toNat

def decode (payload : Bytes) : Build → Option ReceiverReport
  | .ik =>
      if payload.length < receiverReportBodySize .ik then
        none
      else
        let p := payload.drop 3
        some {
          highestCounter := UInt64.ofNat (readNat 0 8 p)
          cumulativePacketsRecv := UInt64.ofNat (readNat 8 16 p)
          cumulativeBytesRecv := UInt64.ofNat (readNat 16 24 p)
          timestampEcho := UInt32.ofNat (readNat 24 28 p)
          dwellTime := UInt16.ofNat (readNat 28 30 p)
          maxBurstLoss := UInt16.ofNat (readNat 30 32 p)
          meanBurstLoss := UInt16.ofNat (readNat 32 34 p)
          jitter := UInt32.ofNat (readNat 36 40 p)
          ecnCeCount := UInt32.ofNat (readNat 40 44 p)
          owdTrend := Int.bmod (readNat 44 48 p) (2 ^ 32)
          burstLossCount := UInt32.ofNat (readNat 48 52 p)
          cumulativeReorderCount := UInt32.ofNat (readNat 52 56 p)
          intervalPacketsRecv := UInt32.ofNat (readNat 56 60 p)
          intervalBytesRecv := UInt32.ofNat (readNat 60 64 p) }
  | .xx =>
      if payload.length < receiverReportBodySize .xx then
        none
      else if payload.headD 0 ≠ 0 ∨ payload.length < 3 + 50 then
        none
      else
        let p := payload.drop 3
        some {
          highestCounter := UInt64.ofNat (readNat 6 14 p)
          cumulativePacketsRecv := UInt64.ofNat (readNat 14 22 p)
          cumulativeBytesRecv := UInt64.ofNat (readNat 22 30 p)
          timestampEcho := UInt32.ofNat (readNat 0 4 p)
          dwellTime := UInt16.ofNat (readNat 4 6 p)
          maxBurstLoss := 0
          meanBurstLoss := 0
          jitter := UInt32.ofNat (readNat 30 34 p)
          ecnCeCount := UInt32.ofNat (readNat 34 38 p)
          owdTrend := Int.bmod (readNat 38 42 p) (2 ^ 32)
          burstLossCount := UInt32.ofNat (readNat 42 46 p)
          cumulativeReorderCount := UInt32.ofNat (readNat 46 50 p)
          intervalPacketsRecv := 0
          intervalBytesRecv := 0 }

theorem encode_length (r : ReceiverReport) (build : Build) : (r.encode build).length ≤ 68 := by
  cases build <;> simp [encode, int32Bytes]

def slim (r : ReceiverReport) : ReceiverReport :=
  { r with maxBurstLoss := 0, meanBurstLoss := 0, intervalPacketsRecv := 0, intervalBytesRecv := 0 }

theorem decode_encode_xx {r : ReceiverReport} (h : -2 ^ 31 ≤ r.owdTrend ∧ r.owdTrend < 2 ^ 31) :
    decode (r.encode .xx) .xx = some r.slim := by
  have htrend : (max (r.owdTrend % 4294967296) 0 % 4294967296).bmod 4294967296 = r.owdTrend := by
    rw [Int.bmod_def]
    omega
  simp [encode, decode, slim, receiverReportBodySize, readNat, Bytes.slice, List.drop_append,
    List.drop_of_length_le, List.take_of_length_le, Bytes.toNat_ofNat, int32Bytes, htrend]

end ReceiverReport
end Mmp
end Microfips

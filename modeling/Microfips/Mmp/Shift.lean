import Microfips.Mmp.Report

/-!
# Reports behind a second type byte

On the IK wire the encoders of the reports write the type byte of the link message themselves, and
the decoders expect to be given what follows it.  A report that is sent behind another type byte is
therefore read one byte too early, and comes back as it was only if all its fields are zero.
-/

namespace Microfips
namespace Mmp

open Wire Bytes

namespace SenderReport

def zero : SenderReport where
  intervalStartCounter := 0
  intervalEndCounter := 0
  intervalStartTimestamp := 0
  intervalEndTimestamp := 0
  intervalBytesSent := 0
  cumulativePacketsSent := 0
  cumulativeBytesSent := 0

def fields (r : SenderReport) : Bytes :=
  ofNat 8 r.intervalStartCounter.toNat ++ ofNat 8 r.intervalEndCounter.toNat ++
    ofNat 4 r.intervalStartTimestamp.toNat ++ ofNat 4 r.intervalEndTimestamp.toNat ++
    ofNat 4 r.intervalBytesSent.toNat ++ ofNat 8 r.cumulativePacketsSent.toNat ++
    ofNat 8 r.cumulativeBytesSent.toNat

def ofFields (p : Bytes) : SenderReport where
  intervalStartCounter := UInt64.ofNat (readNat 0 8 p)
  intervalEndCounter := UInt64.ofNat (readNat 8 16 p)
  intervalStartTimestamp := UInt32.ofNat (readNat 16 20 p)
  intervalEndTimestamp := UInt32.ofNat (readNat 20 24 p)
  intervalBytesSent := UInt32.ofNat (readNat 24 28 p)
  cumulativePacketsSent := UInt64.ofNat (readNat 28 36 p)
  cumulativeBytesSent := UInt64.ofNat (readNat 36 44 p)

theorem encode_ik (r : SenderReport) : r.encode .ik = 0x01 :: 0 :: 0 :: 0 :: r.fields := by
  simp [encode, fields, List.replicate]

theorem fields_length (r : SenderReport) : r.fields.length = 44 := by
  simp [fields]

theorem fields_ofFields {p : Bytes} (h : 44 ≤ p.length) : (ofFields p).fields = p.take 44 := by
  have hslice {i j : ℕ} (hj : j ≤ 44) : (slice i j p).length = j - i := slice_length (hj.trans h)
  simp only [fields, ofFields, readNat]
  rw [ofNat_ofNat_uint64 (hslice (by decide)), ofNat_ofNat_uint64 (hslice (by decide)),
    ofNat_ofNat_uint32 (hslice (by decide)), ofNat_ofNat_uint32 (hslice (by decide)),
    ofNat_ofNat_uint32 (hslice (by decide)), ofNat_ofNat_uint64 (hslice (by decide)),
    ofNat_ofNat_uint64 (hslice (by decide)), show slice 0 8 p = p.take 8 from rfl]
  simp only [take_append_slice, Nat.reduceLeDiff]

theorem decode_encode_ik (r : SenderReport) :
    decode (r.encode .ik) .ik = some (ofFields (0 :: r.fields)) := by
  rw [encode_ik, decode, if_neg]
  · rfl
  · simp [fields_length, senderReportBodySize]

theorem decode_encode_ik_eq_some_iff (r : SenderReport) :
    decode (r.encode .ik) .ik = some r ↔ r = zero := by
  constructor
  · intro h
    rw [decode_encode_ik] at h
    have hr : ofFields (0 :: r.fields) = r := Option.some.inj h
    have hshift : r.fields = (0 :: r.fields).take 44 := by
      rw [← fields_ofFields (by simp [fields_length]), hr]
    rw [← hr, eq_replicate_of_shift hshift]
    decide +kernel
  · rintro rfl
    decide +kernel

end SenderReport

namespace ReceiverReport

def zero : ReceiverReport where
  highestCounter := 0
  cumulativePacketsRecv := 0
  cumulativeBytesRecv := 0
  timestampEcho := 0
  dwellTime := 0
  maxBurstLoss := 0
  meanBurstLoss := 0
  jitter := 0
  ecnCeCount := 0
  owdTrend := 0
  burstLossCount := 0
  cumulativeReorderCount := 0
  intervalPacketsRecv := 0
  intervalBytesRecv := 0

def fieldsBefore (r : ReceiverReport) : Bytes :=
  ofNat 8 r.highestCounter.toNat ++ ofNat 8 r.cumulativePacketsRecv.toNat ++
    ofNat 8 r.cumulativeBytesRecv.toNat ++ ofNat 4 r.timestampEcho.toNat ++
    ofNat 2 r.dwellTime.toNat ++ ofNat 2 r.maxBurstLoss.toNat ++ ofNat 2 r.meanBurstLoss.toNat

def fieldsAfter (r : ReceiverReport) : Bytes :=
  ofNat 4 r.jitter.toNat ++ ofNat 4 r.ecnCeCount.toNat ++ int32Bytes r.owdTrend ++
    ofNat 4 r.burstLossCount.toNat ++ ofNat 4 r.cumulativeReorderCount.toNat ++
    ofNat 4 r.intervalPacketsRecv.toNat ++ ofNat 4 r.intervalBytesRecv.toNat

def ofFields (p : Bytes) : ReceiverReport where
  highestCounter := UInt64.ofNat (readNat 0 8 p)
  cumulativePacketsRecv := UInt64.ofNat (readNat 8 16 p)
  cumulativeBytesRecv := UInt64.ofNat (readNat 16 24 p)
  timestampEcho := UInt32.ofNat (readNat 24 28 p)
  dwellTime := UInt16.ofNat (readNat 28 30 p)
  maxBurstLoss := UInt16.ofNat (readNat 30 32 p)
  meanBurstLoss := UInt16.ofNat (readNat 32 34 p)
  jitter := UInt32.ofNat (readNat 36 40 p)
  ecnCeCount := UInt32.ofNat (readNat 40 44 p)
  owdTrend := Int.bmod (readNat 44 48 p) (2 ^ 32)
  burstLossCount := UInt32.ofNat (readNat 48 52 p)
  cumulativeReorderCount := UInt32.ofNat (readNat 52 56 p)
  intervalPacketsRecv := UInt32.ofNat (readNat 56 60 p)
  intervalBytesRecv := UInt32.ofNat (readNat 60 64 p)

theorem encode_ik (r : ReceiverReport) :
    r.encode .ik = 0x02 :: 0 :: 0 :: 0 :: (r.fieldsBefore ++ 0 :: 0 :: r.fieldsAfter) := by
  simp [encode, fieldsBefore, fieldsAfter, List.replicate]

theorem fieldsBefore_length (r : ReceiverReport) : r.fieldsBefore.length = 34 := by
  simp [fieldsBefore]

theorem fieldsAfter_length (r : ReceiverReport) : r.fieldsAfter.length = 28 := by
  simp [fieldsAfter, int32Bytes]

theorem int32Bytes_bmod {b : Bytes} (h : b.length = 4) :
    int32Bytes (Int.bmod (toNat b) (2 ^ 32)) = b := by
  have hlt : toNat b < 256 ^ 4 := (toNat_lt b).trans_eq (by rw [h])
  have hmod : (Int.bmod (toNat b) (2 ^ 32) % 2 ^ 32).toNat = toNat b := by
    rw [show ((2 : ℤ) ^ 32) = ((2 ^ 32 : ℕ) : ℤ) by norm_num, Int.bmod_emod]
    omega
  rw [int32Bytes, hmod]
  exact h ▸ ofNat_toNat b

theorem fieldsBefore_ofFields {p : Bytes} (h : 64 ≤ p.length) :
    (ofFields p).fieldsBefore = p.take 34 := by
  have hslice {i j : ℕ} (hj : j ≤ 64) : (slice i j p).length = j - i := slice_length (hj.trans h)
  simp only [fieldsBefore, ofFields, readNat]
  rw [ofNat_ofNat_uint64 (hslice (by decide)), ofNat_ofNat_uint64 (hslice (by decide)),
    ofNat_ofNat_uint64 (hslice (by decide)), ofNat_ofNat_uint32 (hslice (by decide)),
    ofNat_ofNat_uint16 (hslice (by decide)), ofNat_ofNat_uint16 (hslice (by decide)),
    ofNat_ofNat_uint16 (hslice (by decide)), show slice 0 8 p = p.take 8 from rfl]
  simp only [take_append_slice, Nat.reduceLeDiff]

theorem fieldsAfter_ofFields {p : Bytes} (h : 64 ≤ p.length) :
    (ofFields p).fieldsAfter = slice 36 64 p := by
  have hslice {i j : ℕ} (hj : j ≤ 64) : (slice i j p).length = j - i := slice_length (hj.trans h)
  simp only [fieldsAfter, ofFields, readNat]
  rw [ofNat_ofNat_uint32 (hslice (by decide)), ofNat_ofNat_uint32 (hslice (by decide)),
    int32Bytes_bmod (hslice (by decide)), ofNat_ofNat_uint32 (hslice (by decide)),
    ofNat_ofNat_uint32 (hslice (by decide)), ofNat_ofNat_uint32 (hslice (by decide)),
    ofNat_ofNat_uint32 (hslice (by decide))]
  simp only [slice_append_slice, Nat.reduceLeDiff]

theorem decode_encode_ik (r : ReceiverReport) : decode (r.encode .ik) .ik =
    some (ofFields (0 :: (r.fieldsBefore ++ 0 :: 0 :: r.fieldsAfter))) := by
  rw [encode_ik, decode, if_neg]
  · rfl
  · simp [fieldsBefore_length, fieldsAfter_length, receiverReportBodySize]

theorem decode_encode_ik_eq_some_iff (r : ReceiverReport) :
    decode (r.encode .ik) .ik = some r ↔ r = zero := by
  constructor
  · intro h
    rw [decode_encode_ik] at h
    have hr : ofFields (0 :: (r.fieldsBefore ++ 0 :: 0 :: r.fieldsAfter)) = r := Option.some.inj h
    have hlen : 64 ≤ (0 :: (r.fieldsBefore ++ 0 :: 0 :: r.fieldsAfter)).length := by
      simp [fieldsBefore_length, fieldsAfter_length]
    have hbefore : r.fieldsBefore = (0 :: r.fieldsBefore).take 34 := by
      have htake := fieldsBefore_ofFields hlen
      rw [hr, ← List.cons_append,
        List.take_append_of_le_length (by simp [fieldsBefore_length])] at htake
      exact htake
    -- the padding before these fields is zero too
    have hafter : r.fieldsAfter = (0 :: r.fieldsAfter).take 28 := by
      have hslice := fieldsAfter_ofFields hlen
      rw [hr, slice, show (36 : ℕ) = 35 + 1 from rfl, List.drop_succ_cons,
        List.drop_append, fieldsBefore_length,
        List.drop_eq_nil_of_le (by rw [fieldsBefore_length]; decide)] at hslice
      exact hslice
    rw [← hr, eq_replicate_of_shift hbefore, eq_replicate_of_shift hafter]
    decide +kernel
  · rintro rfl
    decide +kernel

end ReceiverReport
end Mmp
end Microfips

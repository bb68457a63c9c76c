import Microfips.Mmp.PeerState

/-!
# Transit deltas across a wrap of the timestamp

A frame carries the sender's clock in milliseconds modulo `2 ^ 32`.  After a wrap the send spacing
that `record_recv` computes is off by a multiple of `1000 * 2 ^ 32` microseconds, which the cast to
`i32` drops: where the true delta fits, the jitter estimator sees it.
-/

namespace Microfips
namespace Mmp
namespace ReceiverState

/-- `x as i64`, and the result of a wrapping operation on `i64`. -/
def asI64 (x : ℤ) : ℤ :=
  Int.bmod x (2 ^ 64)

/-- `x as i32`. -/
def asI32 (x : ℤ) : ℤ :=
  Int.bmod x (2 ^ 32)

def transitDelta (senderTimestampMs : UInt32) (now : ℕ) (s : ReceiverState) : Option ℤ :=
  if s.rekeyJitterGraceUntil.any (now < ·) then
    none
  else
    s.lastRecvTime.map fun prevRecv =>
      let recvDeltaUs := asI64 ((now - prevRecv : ℕ) : ℤ)
      let sendDeltaUs :=
        asI64 (asI64 (senderTimestampMs.toNat * 1000) - asI64 (s.lastSenderTimestamp.toNat * 1000))
      asI32 (asI64 (recvDeltaUs - sendDeltaUs))

variable {F : Floats} {s t : ReceiverState} {counter : UInt64} {ts : UInt32} {bytes now : ℕ}

theorem asI32_asI64 (x : ℤ) : asI32 (asI64 x) = asI32 x :=
  Int.bmod_bmod_of_dvd (by decide)

theorem asI64_sub (x y : ℤ) : asI64 (asI64 x - asI64 y) = asI64 (x - y) := by
  simp [asI64]

theorem transitDelta_eq :
    s.transitDelta ts now =
      if s.rekeyJitterGraceUntil.any (now < ·) then none
      else s.lastRecvTime.map fun prevRecv =>
        asI32 (((now - prevRecv : ℕ) : ℤ) -
          ((ts.toNat : ℤ) * 1000 - (s.lastSenderTimestamp.toNat : ℤ) * 1000)) := by
  simp only [transitDelta, asI64_sub, asI32_asI64]

theorem jitter_recordRecv :
    (s.recordRecv counter ts bytes now).jitter =
      ((s.transitDelta ts now).map fun delta => s.jitter.update delta).getD s.jitter := by
  rw [transitDelta_eq]
  simp only [recordRecv, recordJitter]
  cases s.rekeyJitterGraceUntil with
  | none => cases s.lastRecvTime <;> rfl
  | some deadline =>
      by_cases hgrace : now < deadline
      · simp [hgrace]
      · simp only [hgrace]
        cases s.lastRecvTime <;> simp [recordJitter.sample, hgrace, asI32]

theorem lastRecvTime_recordRecv : (s.recordRecv counter ts bytes now).lastRecvTime = some now :=
  rfl

theorem lastSenderTimestamp_recordRecv :
    (s.recordRecv counter ts bytes now).lastSenderTimestamp = ts :=
  rfl

/-- What the wraps take away from the send spacing is a multiple of the modulus. -/
theorem asI32_of_wraps {sentMs sentMs' : ℕ} {spacing delta : ℤ}
    (hdelta : delta = spacing - ((sentMs' : ℤ) - sentMs) * 1000) (hlow : -2 ^ 31 ≤ delta)
    (hhigh : delta < 2 ^ 31) :
    asI32 (spacing -
      (((sentMs' % 2 ^ 32 : ℕ) : ℤ) * 1000 - ((sentMs % 2 ^ 32 : ℕ) : ℤ) * 1000)) = delta := by
  have hwraps : spacing -
      (((sentMs' % 2 ^ 32 : ℕ) : ℤ) * 1000 - ((sentMs % 2 ^ 32 : ℕ) : ℤ) * 1000) =
        delta + ((2 ^ 32 : ℕ) : ℤ) *
          (((sentMs' / 2 ^ 32 : ℕ) : ℤ) * 1000 - ((sentMs / 2 ^ 32 : ℕ) : ℤ) * 1000) := by
    omega
  rw [asI32, hwraps, Int.add_mul_bmod_self_left]
  apply Int.bmod_eq_of_le
  · exact hlow
  · exact hhigh

/-- What may happen between two receptions: reports are built, and their pace is set. -/
inductive Between (F : Floats) (s : ReceiverState) : ReceiverState → Prop
  | refl : Between F s s
  | report {t : ReceiverState} (h : Between F s t) (now : ℕ) : Between F s (t.buildReport F now).2
  | paced {t : ReceiverState} (h : Between F s t) (pace : ReportPace) : Between F s { t with pace }

namespace Between

theorem lastRecvTime_eq (h : Between F s t) : t.lastRecvTime = s.lastRecvTime := by
  induction h with
  | refl => rfl
  | @report t h now ih =>
      rw [← ih, buildReport]
      split <;> rfl
  | paced h pace ih => exact ih

theorem lastSenderTimestamp_eq (h : Between F s t) :
    t.lastSenderTimestamp = s.lastSenderTimestamp := by
  induction h with
  | refl => rfl
  | @report t h now ih =>
      rw [← ih, buildReport]
      split <;> rfl
  | paced h pace ih => exact ih

end Between

/-- Two receptions, one behind the other: where the difference of the receive spacing and the send
spacing fits in 32 bits, the estimator is updated with it, whatever the timestamps wrapped to. -/
theorem update_of_transit (F : Floats) (s t : ReceiverState) (counter counter' : UInt64)
    (sentMs sentMs' bytes bytes' recv recv' : ℕ) (delta : ℤ)
    (hbetween : Between F (s.recordRecv counter (UInt32.ofNat sentMs) bytes recv) t)
    (hgrace : ∀ deadline, t.rekeyJitterGraceUntil = some deadline → deadline ≤ recv')
    (hclock : recv ≤ recv')
    (hdelta : delta = ((recv' : ℤ) - recv) - ((sentMs' : ℤ) - sentMs) * 1000)
    (hlow : -2 ^ 31 ≤ delta) (hhigh : delta < 2 ^ 31) :
    t.transitDelta (UInt32.ofNat sentMs') recv' = some delta ∧
      (t.recordRecv counter' (UInt32.ofNat sentMs') bytes' recv').jitter =
        t.jitter.update delta := by
  have htransit : t.transitDelta (UInt32.ofNat sentMs') recv' = some delta := by
    have houtside : ¬ t.rekeyJitterGraceUntil.any (recv' < ·) = true := by
      cases hdeadline : t.rekeyJitterGraceUntil with
      | none => exact Bool.false_ne_true
      | some deadline => simpa using hgrace deadline hdeadline
    rw [transitDelta_eq, if_neg houtside, hbetween.lastRecvTime_eq, lastRecvTime_recordRecv,
      hbetween.lastSenderTimestamp_eq, lastSenderTimestamp_recordRecv, Option.map_some,
      UInt32.toNat_ofNat', UInt32.toNat_ofNat', Nat.cast_sub hclock,
      asI32_of_wraps hdelta hlow hhigh]
  exact ⟨htransit, by rw [jitter_recordRecv, htransit]; rfl⟩

/-- The timestamp wraps between two frames that were sent ten milliseconds apart and come twelve
apart, with a report in between. -/
theorem update_of_transit_wrapped :
    UInt32.ofNat (4294967291 + 10) = 5 ∧
      (((new.recordRecv 0 (UInt32.ofNat 4294967291) 100 0).buildReport
        ⟨id, fun _ => 0, fun _ _ => 0⟩ 7).2.recordRecv 1 (UInt32.ofNat (4294967291 + 10)) 100
          12000).jitter = JitterEstimator.new.update 2000 := by
  refine ⟨by decide, ?_⟩
  have h := update_of_transit ⟨id, fun _ => 0, fun _ _ => 0⟩ new _ 0 1 4294967291
    (4294967291 + 10) 100 100 0 12000 2000 (Between.refl.report 7) (by rintro deadline ⟨⟩)
    (by decide) (by decide) (by decide) (by decide)
  exact h.2

end ReceiverState
end Mmp
end Microfips

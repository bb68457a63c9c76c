import Microfips.Mmp.PeerState

/-!
# The instants of the MMP measurements

`duration_since` panics when its argument is not in the past.  `Watched` are the measurements
together with the time of the last receiver report that was taken, which they are also subtracted
from, and with a flag that says whether every `duration_since` so far was in order.  It stays set
as long as each operation is called at a time at or after the instants that are kept.
-/

namespace Microfips
namespace Mmp

open Node Wire

/-- The measurements, with a record of their calls of `duration_since`. -/
structure Watched where
  state : MmpPeerState
  /-- `prev_rr_time` of `MmpMetrics`. -/
  prevRrTime : Option ℕ
  inOrder : Bool

namespace Watched

/-- Whether `now.duration_since(t)` is in order, for an instant that may not be there yet. -/
def since (now : ℕ) (t : Option ℕ) : Bool :=
  t.all (· ≤ now)

def new : Watched where
  state := MmpPeerState.new
  prevRrTime := none
  inOrder := true

def prevRrTimeAfter (build : Build) (now : ℕ) (payload : Bytes) (m : Watched) : Option ℕ :=
  match ReceiverReport.decode payload build with
  | none => m.prevRrTime
  | some rr =>
      if m.state.metrics.hasPrevRr && m.state.metrics.isStaleOrDuplicate rr then m.prevRrTime
      else some now

/-- The operations of the measurements.  Each notes the instants that it subtracts from `now`. -/
def ops (F : Floats) (build : Build) : MmpOps Watched where
  resetForRekey now m :=
    { m with state := (MmpPeerState.ops F build).resetForRekey now m.state, prevRrTime := none }
  recordRecv counter ts bytes now m :=
    { m with
      state := (MmpPeerState.ops F build).recordRecv counter ts bytes now m.state
      inOrder := m.inOrder && since now m.state.receiver.lastRecvTime }
  recordSent counter ts bytes m :=
    { m with state := (MmpPeerState.ops F build).recordSent counter ts bytes m.state }
  onSenderReport now payload m :=
    let r := (MmpPeerState.ops F build).onSenderReport now payload m.state
    (r.1, { m with
      state := r.2
      inOrder := m.inOrder && since now m.state.receiver.lastReportTime &&
        since now m.state.receiver.lastRecvTime })
  onReceiverReport now payload m :=
    { m with
      state := (MmpPeerState.ops F build).onReceiverReport now payload m.state
      prevRrTime := prevRrTimeAfter build now payload m
      inOrder := m.inOrder && since now m.prevRrTime }
  buildSenderReport now m :=
    let r := (MmpPeerState.ops F build).buildSenderReport now m.state
    (r.1, { m with state := r.2 })
  buildReceiverReport now m :=
    let r := (MmpPeerState.ops F build).buildReceiverReport now m.state
    (r.1, { m with
      state := r.2
      inOrder := m.inOrder && since now m.state.receiver.lastRecvTime })
  senderReportInterval m := (MmpPeerState.ops F build).senderReportInterval m.state
  receiverReportInterval m := (MmpPeerState.ops F build).receiverReportInterval m.state

/-- Every `duration_since` was in order, and the instants that are kept are not after `t`. -/
structure InPast (t : ℕ) (m : Watched) : Prop where
  inOrder : m.inOrder = true
  lastRecvTime : since t m.state.receiver.lastRecvTime = true
  lastReportTime : since t m.state.receiver.lastReportTime = true
  prevRrTime : since t m.prevRrTime = true

theorem inPast_new (t : ℕ) : InPast t new where
  inOrder := rfl
  lastRecvTime := rfl
  lastReportTime := rfl
  prevRrTime := rfl

theorem since_mono {t t' : ℕ} (h : t ≤ t') {r : Option ℕ} (hr : since t r = true) :
    since t' r = true := by
  cases r with
  | none => rfl
  | some r =>
      simp only [since, Option.all_some, decide_eq_true_eq] at hr ⊢
      exact hr.trans h

@[simp]
theorem since_self (t : ℕ) : since t (some t) = true := by
  simp [since]

namespace InPast

variable {F : Floats} {build : Build} {t : ℕ} {m : Watched}

theorem mono {t' : ℕ} (hm : m.InPast t) (h : t ≤ t') : m.InPast t' where
  inOrder := hm.inOrder
  lastRecvTime := since_mono h hm.lastRecvTime
  lastReportTime := since_mono h hm.lastReportTime
  prevRrTime := since_mono h hm.prevRrTime

theorem resetForRekey (hm : m.InPast t) (now : ℕ) :
    ((ops F build).resetForRekey now m).InPast t where
  inOrder := hm.inOrder
  lastRecvTime := rfl
  lastReportTime := hm.lastReportTime
  prevRrTime := rfl

theorem recordSent (hm : m.InPast t) (counter : UInt64) (ts : UInt32) (bytes : ℕ) :
    ((ops F build).recordSent counter ts bytes m).InPast t where
  inOrder := hm.inOrder
  lastRecvTime := hm.lastRecvTime
  lastReportTime := hm.lastReportTime
  prevRrTime := hm.prevRrTime

theorem lastReportTime_recordJitter (ts : UInt32) (now : ℕ) (s : ReceiverState) :
    (s.recordJitter ts now).lastReportTime = s.lastReportTime := by
  have hsample : ∀ s : ReceiverState,
      (ReceiverState.recordJitter.sample ts now s).lastReportTime = s.lastReportTime := by
    intro s
    rw [ReceiverState.recordJitter.sample]
    split <;> rfl
  rw [ReceiverState.recordJitter]
  split
  · split
    · rfl
    · exact hsample _
  · exact hsample _

theorem recordRecv (hm : m.InPast t) (counter : UInt64) (ts : UInt32) (bytes : ℕ) :
    ((ops F build).recordRecv counter ts bytes t m).InPast t where
  inOrder := by simp [ops, hm.inOrder, hm.lastRecvTime]
  lastRecvTime := since_self t
  lastReportTime := by
    have h := lastReportTime_recordJitter
    simpa [ops, MmpPeerState.ops, ReceiverState.recordRecv, h] using hm.lastReportTime
  prevRrTime := hm.prevRrTime

theorem buildReport (r : ReceiverState) (now : ℕ) :
    (r.buildReport F now).2.lastRecvTime = r.lastRecvTime ∧
      ((r.buildReport F now).2.lastReportTime = r.lastReportTime ∨
        (r.buildReport F now).2.lastReportTime = some now) := by
  rw [ReceiverState.buildReport]
  split
  · exact ⟨rfl, .inr rfl⟩
  · exact ⟨rfl, .inl rfl⟩

theorem buildReceiverReport (hm : m.InPast t) :
    ((ops F build).buildReceiverReport t m).2.InPast t := by
  obtain ⟨hrecv, hreport⟩ := buildReport (F := F) m.state.receiver t
  constructor
  · simp [ops, hm.inOrder, hm.lastRecvTime]
  · simpa [ops, MmpPeerState.ops, hrecv] using hm.lastRecvTime
  · obtain hreport | hreport := hreport
    · simpa [ops, MmpPeerState.ops, hreport] using hm.lastReportTime
    · simp [ops, MmpPeerState.ops, hreport]
  · exact hm.prevRrTime

theorem onSenderReport (hm : m.InPast t) (payload : Bytes) :
    ((ops F build).onSenderReport t payload m).2.InPast t := by
  obtain ⟨hrecv, hreport⟩ := buildReport (F := F) m.state.receiver t
  have hstate : ((ops F build).onSenderReport t payload m).2.state.receiver = m.state.receiver ∨
      ((ops F build).onSenderReport t payload m).2.state.receiver =
        (m.state.receiver.buildReport F t).2 := by
    simp only [ops, MmpPeerState.ops, MmpPeerState.onSenderReport]
    split
    · exact .inl rfl
    · split
      · exact .inr rfl
      · exact .inl rfl
  constructor
  · simp [ops, hm.inOrder, hm.lastRecvTime, hm.lastReportTime]
  · obtain hstate | hstate := hstate
    · exact hstate ▸ hm.lastRecvTime
    · rw [hstate, hrecv]
      exact hm.lastRecvTime
  · obtain hstate | hstate := hstate
    · exact hstate ▸ hm.lastReportTime
    · rw [hstate]
      obtain hreport | hreport := hreport
      · exact hreport ▸ hm.lastReportTime
      · rw [hreport]
        exact since_self t
  · exact hm.prevRrTime

theorem onReceiverReport (hm : m.InPast t) (payload : Bytes) :
    ((ops F build).onReceiverReport t payload m).InPast t := by
  have hstate : ((ops F build).onReceiverReport t payload m).state.receiver.lastRecvTime =
        m.state.receiver.lastRecvTime ∧
      ((ops F build).onReceiverReport t payload m).state.receiver.lastReportTime =
        m.state.receiver.lastReportTime := by
    simp only [ops, MmpPeerState.ops, MmpPeerState.onReceiverReport]
    split
    · exact ⟨rfl, rfl⟩
    · split <;> exact ⟨rfl, rfl⟩
  constructor
  · simp [ops, hm.inOrder, hm.prevRrTime]
  · exact hstate.1 ▸ hm.lastRecvTime
  · exact hstate.2 ▸ hm.lastReportTime
  · simp only [ops, prevRrTimeAfter]
    split
    · exact hm.prevRrTime
    · split
      · exact hm.prevRrTime
      · exact since_self t

theorem buildSenderReport (hm : m.InPast t) (now : ℕ) :
    ((ops F build).buildSenderReport now m).2.InPast t where
  inOrder := hm.inOrder
  lastRecvTime := hm.lastRecvTime
  lastReportTime := hm.lastReportTime
  prevRrTime := hm.prevRrTime

end InPast

section Length

variable {F : Floats} {build : Build} {m : Watched} {now : ℕ} {body : Bytes}

theorem length_le_of_buildSenderReport (h : ((ops F build).buildSenderReport now m).1 = some body) :
    body.length ≤ 68 := by
  obtain ⟨sr, -, rfl⟩ := Option.map_eq_some_iff.mp h
  exact (sr.encode_length build).trans (by decide)

theorem length_le_of_buildReceiverReport
    (h : ((ops F build).buildReceiverReport now m).1 = some body) : body.length ≤ 68 := by
  obtain ⟨rr, -, rfl⟩ := Option.map_eq_some_iff.mp h
  exact rr.encode_length build

theorem length_le_of_onSenderReport {payload : Bytes}
    (h : ((ops F build).onSenderReport now payload m).1 = some body) : body.length ≤ 68 := by
  simp only [ops, MmpPeerState.ops, MmpPeerState.onSenderReport] at h
  split at h
  · cases h
  · split at h
    · obtain ⟨rr, -, rfl⟩ := Option.map_eq_some_iff.mp h
      exact rr.encode_length build
    · cases h

end Length

end Watched
end Mmp
end Microfips

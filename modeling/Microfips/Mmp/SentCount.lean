import Microfips.Mmp.PeerState

/-!
# The packet count of a sender report

On the XX wire a sender report carries the number of packets of its interval.  It is computed as the
difference of the last and the first counter.  Within a key epoch that is one less than the number
of frames, and a rekey in the interval, which restarts the counters and leaves the sender's state,
makes it smaller still.
-/

namespace Microfips
namespace Mmp

open Node Wire

/-- A call of `record_sent`: the key epoch and the counter. -/
structure Sent where
  epoch : ℕ
  counter : ℕ
  deriving DecidableEq

inductive SendEvent where
  | sent (timestamp : UInt32) (bytes : ℕ)
  | rekey (now : ℕ)
  | report (now : ℕ)

/-- The measurements and the current epoch and its next counter, with the calls of `record_sent`
since the last report. -/
structure Sending where
  mmp : MmpPeerState
  epoch : ℕ
  counter : ℕ
  since : List Sent

namespace Sending

def new : Sending where
  mmp := MmpPeerState.new
  epoch := 0
  counter := 0
  since := []

/-- One event, with the report that it builds and the calls of `record_sent` that this is about. -/
def step (F : Floats) (s : Sending) : SendEvent → Option (Bytes × List Sent) × Sending
  | .sent timestamp bytes =>
      (none, { s with
        mmp := (MmpPeerState.ops F .xx).recordSent (UInt64.ofNat s.counter) timestamp bytes s.mmp
        counter := s.counter + 1
        since := s.since ++ [⟨s.epoch, s.counter⟩] })
  | .rekey now =>
      (none, { s with
        mmp := (MmpPeerState.ops F .xx).resetForRekey now s.mmp
        epoch := s.epoch + 1
        counter := 0 })
  | .report now =>
      let (report, mmp) := (MmpPeerState.ops F .xx).buildSenderReport now s.mmp
      match report with
      | none => (none, { s with mmp })
      | some bytes => (some (bytes, s.since), { s with mmp, since := [] })

def reports (F : Floats) : Sending → List SendEvent → List (Bytes × List Sent)
  | _, [] => []
  | s, e :: events => (s.step F e).1.toList ++ reports F (s.step F e).2 events

def packetCount (report : Bytes) : ℕ :=
  readNat 3 7 report

/-- What the first and the last of some calls in a row say about their number. -/
structure Spans (calls : List Sent) (first last : Sent) : Prop where
  head_eq : calls.head? = some first
  getLast_eq : calls.getLast? = some last
  epoch_le : first.epoch ≤ last.epoch
  /-- Within an epoch the counters rise by one. -/
  of_eq : first.epoch = last.epoch → last.counter + 1 = first.counter + calls.length
  /-- A new epoch starts from zero. -/
  of_lt : first.epoch < last.epoch → last.counter + 2 ≤ calls.length

theorem Spans.singleton (call : Sent) : Spans [call] call call where
  head_eq := rfl
  getLast_eq := rfl
  epoch_le := le_rfl
  of_eq _ := rfl
  of_lt h := (Nat.lt_irrefl _ h).elim

theorem Spans.snoc {calls : List Sent} {first last next : Sent} (h : Spans calls first last)
    (hnext : last.epoch = next.epoch ∧ next.counter = last.counter + 1 ∨
      last.epoch < next.epoch ∧ next.counter = 0) : Spans (calls ++ [next]) first next := by
  have hne : calls ≠ [] := fun hnil => by
    have hhead := h.head_eq
    rw [hnil] at hhead
    cases hhead
  have hpos := List.length_pos_of_ne_nil hne
  constructor
  · rw [List.head?_append, h.head_eq]
    rfl
  · rw [List.getLast?_append]
    rfl
  · have := h.epoch_le
    omega
  · intro heq
    have hle := h.epoch_le
    have hcount := h.of_eq
    rw [List.length_append, List.length_singleton]
    omega
  · intro hlt
    have hsame := h.of_eq
    have hother := h.of_lt
    have hle := h.epoch_le
    rw [List.length_append, List.length_singleton]
    omega

theorem packetCount_encode (r : SenderReport) :
    packetCount (r.encode .xx) =
      (r.intervalEndCounter.toNat - r.intervalStartCounter.toNat) % 2 ^ 32 := by
  have hslice := Bytes.slice_append (i := 3) (a := 0 :: Bytes.ofNat 2 16)
    (Bytes.ofNat 4 (r.intervalEndCounter.toNat - r.intervalStartCounter.toNat))
    (Bytes.ofNat 4 r.intervalBytesSent.toNat ++ Bytes.ofNat 8 r.cumulativePacketsSent.toNat) rfl
  rw [Bytes.ofNat_length, ← List.append_assoc, ← List.append_assoc] at hslice
  rw [packetCount, readNat, SenderReport.encode]
  rw [hslice, Bytes.toNat_ofNat, show (256 : ℕ) ^ 4 = 2 ^ 32 by decide]

/-- What the sender's state knows of the calls since the last report. -/
structure Accounts (s : Sending) : Prop where
  hasData_eq : s.mmp.sender.intervalHasData = !s.since.isEmpty
  spans : s.since ≠ [] → ∃ first last, Spans s.since first last ∧
    s.mmp.sender.intervalStartCounter.toNat = first.counter ∧
    s.mmp.sender.lastCounter.toNat = last.counter ∧
    (last.epoch = s.epoch ∧ s.counter = last.counter + 1 ∨ last.epoch < s.epoch ∧ s.counter = 0)

def Counted (report : Bytes × List Sent) : Prop :=
  ∃ first last, Spans report.2 first last ∧
    packetCount report.1 = (last.counter - first.counter) % 2 ^ 32

section Run

variable {F : Floats} {s : Sending} {e : SendEvent}

theorem accounts_new : new.Accounts :=
  ⟨rfl, fun h => (h rfl).elim⟩

theorem accounts_sent (h : s.Accounts) (hlt : s.counter < 2 ^ 64) (ts : UInt32) (bytes : ℕ) :
    (s.step F (.sent ts bytes)).2.Accounts := by
  have hcounter : (UInt64.ofNat s.counter).toNat = s.counter := UInt64.toNat_ofNat_of_lt' hlt
  constructor
  · simp [step, MmpPeerState.ops, SenderState.recordSent]
  · intro _
    by_cases hnil : s.since = []
    · have hdata := h.hasData_eq
      rw [hnil] at hdata
      refine ⟨⟨s.epoch, s.counter⟩, ⟨s.epoch, s.counter⟩, ?_, ?_, ?_, Or.inl ⟨rfl, rfl⟩⟩
      · simp only [step, hnil]
        exact Spans.singleton _
      · simp [step, MmpPeerState.ops, SenderState.recordSent, hdata, hcounter]
      · exact hcounter
    · obtain ⟨first, last, hspans, hstart, -, hnext⟩ := h.spans hnil
      have hdata := h.hasData_eq
      rw [List.isEmpty_eq_false_iff.mpr hnil] at hdata
      refine ⟨first, ⟨s.epoch, s.counter⟩, hspans.snoc hnext, ?_, hcounter, Or.inl ⟨rfl, rfl⟩⟩
      simp [step, MmpPeerState.ops, SenderState.recordSent, hdata, hstart]

theorem accounts_rekey (h : s.Accounts) (now : ℕ) : (s.step F (.rekey now)).2.Accounts := by
  constructor
  · exact h.hasData_eq
  · intro hne
    obtain ⟨first, last, hspans, hstart, hlast, hnext⟩ := h.spans hne
    refine ⟨first, last, hspans, hstart, hlast, Or.inr ⟨?_, rfl⟩⟩
    change last.epoch < s.epoch + 1
    omega

theorem accounts_report (h : s.Accounts) (now : ℕ) :
    (s.step F (.report now)).2.Accounts ∧ ∀ r ∈ (s.step F (.report now)).1, Counted r := by
  have hdata := h.hasData_eq
  by_cases hnil : s.since = []
  · rw [hnil] at hdata
    have hstep : s.step F (.report now) = (none, s) := by
      simp [step, MmpPeerState.ops, SenderState.buildReport, hdata]
    rw [hstep]
    exact ⟨h, fun r hr => by cases hr⟩
  · rw [List.isEmpty_eq_false_iff.mpr hnil] at hdata
    obtain ⟨first, last, hspans, hstart, hlast, -⟩ := h.spans hnil
    simp only [step, MmpPeerState.ops, SenderState.buildReport, hdata, Bool.not_false, if_true,
      Option.map_some]
    refine ⟨⟨rfl, fun hne => (hne rfl).elim⟩, ?_⟩
    intro r hr
    cases hr
    refine ⟨first, last, hspans, ?_⟩
    rw [packetCount_encode, hstart, hlast]

theorem accounts_step (h : s.Accounts) (hlt : s.counter < 2 ^ 64) :
    (s.step F e).2.Accounts ∧ ∀ r ∈ (s.step F e).1, Counted r := by
  cases e with
  | sent ts bytes => exact ⟨accounts_sent h hlt ts bytes, fun r hr => by cases hr⟩
  | rekey now => exact ⟨accounts_rekey h now, fun r hr => by cases hr⟩
  | report now => exact accounts_report h now

theorem counter_step_le : (s.step F e).2.counter ≤ s.counter + 1 := by
  cases e with
  | sent ts bytes => exact le_rfl
  | rekey now => exact Nat.zero_le _
  | report now =>
      rw [step]
      dsimp only
      split <;> exact Nat.le_succ _

theorem counted_of_mem_reports {events : List SendEvent} (h : s.Accounts)
    (hlen : s.counter + events.length ≤ 2 ^ 64) : ∀ r ∈ reports F s events, Counted r := by
  induction events generalizing s with
  | nil => exact fun r hr => by cases hr
  | cons e events ih =>
      rw [List.length_cons] at hlen
      obtain ⟨hnext, hreport⟩ := accounts_step (F := F) (e := e) h (by omega)
      have hcounter : (s.step F e).2.counter ≤ s.counter + 1 := counter_step_le
      rw [reports, List.forall_mem_append]
      constructor
      · exact fun r hr => hreport r (Option.mem_toList.mp hr)
      · exact ih hnext (by omega)

end Run

/-- The packet count of every report is the difference of the last and the first counter since the
report before: one less than the number of calls of `record_sent` where they are all of one key
epoch, and smaller where they are not. -/
theorem packetCount_of_report (F : Floats) (events : List SendEvent)
    (hlen : events.length ≤ 2 ^ 64) (report : Bytes) (calls : List Sent)
    (h : (report, calls) ∈ reports F new events) :
    ∃ first last, calls.head? = some first ∧ calls.getLast? = some last ∧
      packetCount report = (last.counter - first.counter) % 2 ^ 32 ∧
      (first.epoch = last.epoch → last.counter - first.counter = calls.length - 1) ∧
      (first.epoch ≠ last.epoch → last.counter - first.counter < calls.length - 1) := by
  have hcounted := counted_of_mem_reports accounts_new
    (show new.counter + events.length ≤ 2 ^ 64 by rwa [show new.counter = 0 from rfl, Nat.zero_add])
    _ h
  obtain ⟨first, last, hspans, hcount⟩ := hcounted
  obtain ⟨hhead, hlast, hle, heq, hlt⟩ := hspans
  refine ⟨first, last, hhead, hlast, hcount, ?_, ?_⟩
  · intro hepoch
    have := heq hepoch
    dsimp only at this
    omega
  · intro hepoch
    have := hlt (lt_of_le_of_ne hle hepoch)
    dsimp only at this
    omega

/-- Three frames of one epoch are reported as two. -/
theorem packetCount_of_report_three :
    ([0, 16, 0, 2, 0, 0, 0, 44, 1, 0, 0, 3, 0, 0, 0, 0, 0, 0, 0], [⟨0, 0⟩, ⟨0, 1⟩, ⟨0, 2⟩]) ∈
        reports ⟨id, fun _ => 0, fun _ _ => 0⟩ new
          [.sent 0 100, .sent 1 100, .sent 2 100, .report 10] ∧
      packetCount [0, 16, 0, 2, 0, 0, 0, 44, 1, 0, 0, 3, 0, 0, 0, 0, 0, 0, 0] = 3 - 1 := by
  have hmem : ([0, 16, 0, 2, 0, 0, 0, 44, 1, 0, 0, 3, 0, 0, 0, 0, 0, 0, 0],
      [⟨0, 0⟩, ⟨0, 1⟩, ⟨0, 2⟩]) ∈ reports ⟨id, fun _ => 0, fun _ _ => 0⟩ new
        [.sent 0 100, .sent 1 100, .sent 2 100, .report 10] := by
    decide
  obtain ⟨first, last, hfirst, hlast, hcount, heq, -⟩ := packetCount_of_report
    ⟨id, fun _ => 0, fun _ _ => 0⟩ [.sent 0 100, .sent 1 100, .sent 2 100, .report 10] (by decide)
    _ _ hmem
  cases hfirst
  cases hlast
  exact ⟨hmem, hcount.trans (by rw [heq rfl]; decide)⟩

/-- One frame is reported as none. -/
theorem packetCount_one_frame :
    (reports ⟨id, fun _ => 0, fun _ _ => 0⟩ new [.sent 0 100, .report 10]).map
      (fun r => (packetCount r.1, r.2.length)) = [(0, 1)] := by
  decide

end Sending
end Mmp
end Microfips

import Microfips.Mmp.PeerState

/-!
# The tally of received frames

What `ReceiverState` knows of the order and the loss of frames: the highest counter, the count of
reordered frames and the gap statistics.  It is a function of what was observed since it was last
reset: the counters of the received frames, and where among them an interval ended with a report.
-/

namespace Microfips
namespace Mmp

structure Tally where
  highestCounter : UInt64
  cumulativeReorderCount : UInt64
  gapTracker : GapTracker
  deriving DecidableEq

inductive Observation where
  /-- A frame with this counter was received. -/
  | frame (counter : UInt64)
  /-- An interval was closed by a report. -/
  | report
  deriving DecidableEq

def Observation.counter? : Observation → Option UInt64
  | frame counter => some counter
  | report => none

def GapTracker.endInterval (g : GapTracker) : GapTracker :=
  { g.finishBurst with burstCount := 0, maxBurstLen := 0, totalBurstLen := 0 }

namespace Tally

def new : Tally where
  highestCounter := 0
  cumulativeReorderCount := 0
  gapTracker := GapTracker.new

def observe (o : Observation) (t : Tally) : Tally :=
  match o with
  | .frame counter =>
      { highestCounter := if counter < t.highestCounter then t.highestCounter else counter
        cumulativeReorderCount :=
          if counter < t.highestCounter then t.cumulativeReorderCount + 1
          else t.cumulativeReorderCount
        gapTracker := (t.gapTracker.observe counter).2 }
  | .report => { t with gapTracker := t.gapTracker.endInterval }

/-- The tally of the observations, newest first, on top of `base`. -/
def observeAll (base : Tally) (observed : List Observation) : Tally :=
  observed.foldr observe base

/-- The tally is one of frames with these counters, newest first, on top of `base`, and of
reports. -/
def OfFrames (base : Tally) (counters : List UInt64) (t : Tally) : Prop :=
  ∃ observed, observed.filterMap Observation.counter? = counters ∧ t = observeAll base observed

theorem ofFrames_nil (base : Tally) : OfFrames base [] base :=
  ⟨[], rfl, rfl⟩

theorem OfFrames.frame {base t : Tally} {counters : List UInt64} (h : OfFrames base counters t)
    (counter : UInt64) : OfFrames base (counter :: counters) (t.observe (.frame counter)) := by
  obtain ⟨observed, rfl, rfl⟩ := h
  exact ⟨.frame counter :: observed, rfl, rfl⟩

theorem OfFrames.report {base t : Tally} {counters : List UInt64} (h : OfFrames base counters t) :
    OfFrames base counters (t.observe .report) := by
  obtain ⟨observed, rfl, rfl⟩ := h
  exact ⟨.report :: observed, rfl, rfl⟩

theorem highestCounter_observeAll_le {bound : UInt64} (observed : List Observation)
    (h : ∀ c ∈ observed.filterMap Observation.counter?, c ≤ bound) :
    (observeAll new observed).highestCounter ≤ bound := by
  induction observed with
  | nil => exact UInt64.le_iff_toNat_le.mpr (Nat.zero_le _)
  | cons o observed ih =>
      cases o with
      | report => exact ih h
      | frame c =>
          simp only [List.filterMap_cons, Observation.counter?, List.forall_mem_cons] at h
          change (if c < (observeAll new observed).highestCounter then
            (observeAll new observed).highestCounter else c) ≤ bound
          split
          · exact ih h.2
          · exact h.1

end Tally

namespace ReceiverState

def tally (s : ReceiverState) : Tally where
  highestCounter := s.highestCounter
  cumulativeReorderCount := s.cumulativeReorderCount
  gapTracker := s.gapTracker

theorem tally_recordJitter (ts : UInt32) (now : ℕ) (s : ReceiverState) :
    (s.recordJitter ts now).tally = s.tally := by
  have hsample (s : ReceiverState) : (recordJitter.sample ts now s).tally = s.tally := by
    rw [recordJitter.sample]
    split <;> rfl
  rw [recordJitter]
  split
  · split
    · rfl
    · exact hsample _
  · exact hsample s

theorem tally_recordRecv (counter : UInt64) (ts : UInt32) (bytes now : ℕ) (s : ReceiverState) :
    (s.recordRecv counter ts bytes now).tally = s.tally.observe (.frame counter) :=
  tally_recordJitter ts now _

theorem tally_buildReport (F : Floats) (now : ℕ) (s : ReceiverState) :
    (s.buildReport F now).2.tally = s.tally ∨
      (s.buildReport F now).2.tally = s.tally.observe .report := by
  rw [buildReport]
  split
  · exact .inr rfl
  · exact .inl rfl

end ReceiverState

namespace MmpPeerState

theorem tally_onSenderReport (F : Floats) (build : Wire.Build) (now : ℕ) (payload : Bytes)
    (m : MmpPeerState) :
    (m.onSenderReport F build now payload).2.receiver.tally = m.receiver.tally ∨
      (m.onSenderReport F build now payload).2.receiver.tally =
        m.receiver.tally.observe .report := by
  rw [onSenderReport]
  split
  · exact .inl rfl
  · split
    · exact m.receiver.tally_buildReport F now
    · exact .inl rfl

theorem tally_onReceiverReport (F : Floats) (build : Wire.Build) (now : ℕ) (payload : Bytes)
    (m : MmpPeerState) :
    (m.onReceiverReport F build now payload).receiver.tally = m.receiver.tally := by
  rw [onReceiverReport]
  split
  · rfl
  · dsimp only
    split <;> rfl

end MmpPeerState
end Mmp
end Microfips

import Microfips.Mmp.PeerState
import Microfips.Node.Footprint
import Microfips.Node.Ledger

/-!
# The deadlines of the loop

`steady` sleeps until the earliest of its deadlines, and its timer branch moves those that have
passed.  The heartbeat and the sender report always move on.  The receiver report of the XX build
counts for the sleep in every build and for every peer, but it moves on only with the feature
`mmp` and for a peer that has asked for it: otherwise, once it is due, the loop no longer sleeps.
-/

namespace Microfips
namespace Node

open Noise Wire Mmp EStateM

variable {H M : Type} (C : Config H M)

namespace Steady

def baseDeadline (s : Steady H M) : ℕ :=
  match C.build with
  | .ik => min s.nextHb s.nextSr
  | .xx => min (min s.nextHb s.nextSr) s.nextRr

def timerTime (s : Steady H M) : ℕ :=
  C.world.clock (s.calls + 1)

/-- The receiver report of the XX build is not due, or the timer branch will move it. -/
def RrMoves (s : Steady H M) : Prop :=
  C.build = .xx → timerTime C s < s.nextRr ∨ C.mmpFeature = true ∧ mmpSendRr C = true

instance (s : Steady H M) : Decidable (RrMoves C s) :=
  inferInstanceAs (Decidable (_ → _))

variable {C}

section

variable (hclock : Monotone C.world.clock)

theorem sendHeartbeat_deadline {s u : Steady H M} {deadline : ℕ}
    (h : (sendHeartbeat C).run s = .ok deadline u) :
    ∃ n, s.calls ≤ n ∧
      deadline = C.world.clock n + fromSecs C.timing.heartbeatIntervalSecs := by
  rw [sendHeartbeat] at h
  obtain ⟨c, s₁, htake, h⟩ := exists_of_run_bind h
  obtain ⟨sent, s₂, hseal, h⟩ := exists_of_run_bind h
  have hcalls := (unobtrusive_takeCounter.beside htake).calls_le.trans
    ((unobtrusive_sealAndSend C _ _ _).beside hseal).calls_le
  cases h
  exact ⟨s₂.calls, hcalls, rfl⟩

include hclock in
theorem heartbeatIfDue_deadlines (hhb : 0 < C.timing.heartbeatIntervalSecs) {t n : ℕ}
    {s u : Steady H M} {sent : Bool} (ht : t = C.world.clock n) (hn : n ≤ s.calls)
    (h : (heartbeatIfDue C t).run s = .ok sent u) :
    t < u.nextHb ∧ u.nextSr = s.nextSr ∧ u.nextRr = s.nextRr := by
  rw [heartbeatIfDue, run_get_bind] at h
  split at h
  · obtain ⟨deadline, s₁, hsend, h⟩ := exists_of_run_bind h
    obtain ⟨k, hk, hdeadline⟩ := sendHeartbeat_deadline hsend
    have hstanding := ((unobtrusive_sendHeartbeat C).beside hsend).deadlines_eq
    obtain ⟨⟨⟩, s₂, hmodify, h⟩ := exists_of_run_bind h
    obtain ⟨⟨⟩, s₃, hevent, h⟩ := exists_of_run_bind h
    have hafter := ((unobtrusive_onEvent C _).beside hevent).deadlines_eq
    rw [← (Result.ok.inj hmodify).2] at hafter
    obtain ⟨-, rfl⟩ := Result.ok.inj h
    simp only [deadlines, Prod.mk.injEq] at hstanding hafter
    have hlater : C.world.clock n ≤ C.world.clock k := hclock (hn.trans hk)
    have hpos : 0 < fromSecs C.timing.heartbeatIntervalSecs := by
      simp only [fromSecs, ticksPerSecond]
      omega
    refine ⟨?_, hafter.2.1.trans hstanding.2.1, hafter.2.2.trans hstanding.2.2⟩
    omega
  · rename_i hnot
    cases h
    exact ⟨Nat.lt_of_not_le hnot, rfl, rfl⟩

include hclock in
theorem heartbeatOrLeave_deadlines (hhb : 0 < C.timing.heartbeatIntervalSecs) {t n : ℕ}
    {s u : Steady H M} (ht : t = C.world.clock n) (hn : n ≤ s.calls)
    (h : (heartbeatOrLeave C t).run s = .ok ⟨⟩ u) :
    t < u.nextHb ∧ u.nextSr = s.nextSr ∧ u.nextRr = s.nextRr := by
  rw [heartbeatOrLeave] at h
  obtain ⟨sent, s₁, hbeat, h⟩ := exists_of_run_bind h
  have hmoved := heartbeatIfDue_deadlines hclock hhb ht hn hbeat
  have hcheck : s₁.deadlines = u.deadlines := by
    cases sent with
    | false =>
        cases h
        rfl
    | true =>
        rw [if_pos rfl] at h
        obtain ⟨now, s₂, hnow, h⟩ := exists_of_run_bind h
        cases hnow
        rw [run_get_bind] at h
        split at h
        · obtain ⟨⟨⟩, s₃, -, h⟩ := exists_of_run_bind h
          cases h
        · cases h
          rfl
  simp only [deadlines, Prod.mk.injEq] at hcheck
  obtain ⟨hhb', hsr, hrr⟩ := hcheck
  rw [← hhb', ← hsr, ← hrr]
  exact hmoved

end

section

variable {t : ℕ} {s u : Steady H M}

theorem senderReportIfDueIk_deadlines (hsr : ∀ m, 0 < C.mmp.senderReportInterval m)
    (h : (senderReportIfDueIk C t).run s = .ok ⟨⟩ u) :
    u.nextHb = s.nextHb ∧ t < u.nextSr := by
  rw [senderReportIfDueIk, run_get_bind] at h
  split at h
  · rw [run_set_bind] at h
    have hsent := ((unobtrusive_sendReport C _ _).beside h).deadlines_eq
    simp only [deadlines, Prod.mk.injEq] at hsent
    have hpos := hsr (C.mmp.buildSenderReport t s.mmp).2
    exact ⟨hsent.1, by omega⟩
  · rename_i hnot
    cases h
    exact ⟨rfl, Nat.lt_of_not_le hnot⟩

theorem senderReportIfDueXx_deadlines (hsr : ∀ m, 0 < C.mmp.senderReportInterval m)
    (h : (senderReportIfDueXx C t).run s = .ok ⟨⟩ u) :
    u.nextHb = s.nextHb ∧ t < u.nextSr ∧ u.nextRr = s.nextRr := by
  rw [senderReportIfDueXx, run_get_bind] at h
  split at h
  · obtain ⟨⟨⟩, s₁, hsend, h⟩ := exists_of_run_bind h
    have hsent : s₁.deadlines = s.deadlines := by
      rw [senderReportXx] at hsend
      split at hsend
      · rw [run_get_bind, run_set_bind] at hsend
        exact ((unobtrusive_sendReport C _ _).beside hsend).deadlines_eq
      · cases hsend
        rfl
    cases h
    simp only [deadlines, Prod.mk.injEq] at hsent
    have hpos := hsr s₁.mmp
    exact ⟨hsent.1, by simp only; omega, hsent.2.2⟩
  · rename_i hnot
    cases h
    exact ⟨rfl, Nat.lt_of_not_le hnot, rfl⟩

theorem receiverReportIfDueXx_deadlines (hrr : ∀ m, 0 < C.mmp.receiverReportInterval m)
    (h : (receiverReportIfDueXx C t).run s = .ok ⟨⟩ u) :
    u.nextHb = s.nextHb ∧ u.nextSr = s.nextSr ∧
      (t < s.nextRr ∨ mmpSendRr C = true → t < u.nextRr) := by
  rw [receiverReportIfDueXx, run_get_bind] at h
  split at h
  · rw [run_set_bind] at h
    obtain ⟨⟨⟩, s₁, hsend, h⟩ := exists_of_run_bind h
    have hsent := ((unobtrusive_sendReport C _ _).beside hsend).deadlines_eq
    cases h
    simp only [deadlines, Prod.mk.injEq] at hsent
    have hpos := hrr s₁.mmp
    exact ⟨hsent.1, hsent.2.1, fun _ => by simp only; omega⟩
  · rename_i hnot
    cases h
    refine ⟨rfl, rfl, fun hmoves => ?_⟩
    rcases hmoves with hlater | hsend
    · exact hlater
    · exact Nat.lt_of_not_le fun hdue => hnot ⟨hdue, hsend⟩

theorem plainReportIfDue_deadlines (hhb : 0 < C.timing.heartbeatIntervalSecs)
    (h : (plainReportIfDue C t).run s = .ok ⟨⟩ u) :
    u.nextHb = s.nextHb ∧ t < u.nextSr ∧ u.nextRr = s.nextRr := by
  have hpos : 0 < fromSecs C.timing.heartbeatIntervalSecs := by
    simp only [fromSecs, ticksPerSecond]
    omega
  rw [plainReportIfDue, run_get_bind] at h
  split at h
  · rw [run_set_bind] at h
    split at h
    · rw [sendPlainReport, run_get_bind] at h
      obtain ⟨⟨⟩, s₁, hsend, h⟩ := exists_of_run_bind h
      have hsent := ((unobtrusive_sendLinkMessage C _ _).beside hsend).deadlines_eq
      cases h
      simp only [deadlines, Prod.mk.injEq] at hsent
      exact ⟨hsent.1, by simp only; omega, hsent.2.2⟩
    · cases h
      exact ⟨rfl, by simp only; omega, rfl⟩
  · rename_i hnot
    cases h
    exact ⟨rfl, Nat.lt_of_not_le hnot, rfl⟩

/-- The sender report moves on in every build, the receiver report where it is sent. -/
theorem reportsIfDue_deadlines (hhb : 0 < C.timing.heartbeatIntervalSecs)
    (hsr : ∀ m, 0 < C.mmp.senderReportInterval m) (hrr : ∀ m, 0 < C.mmp.receiverReportInterval m)
    (h : (reportsIfDue C t).run s = .ok ⟨⟩ u) :
    u.nextHb = s.nextHb ∧ t < u.nextSr ∧
      (C.build = .xx → t < s.nextRr ∨ C.mmpFeature = true ∧ mmpSendRr C = true →
        t < u.nextRr) := by
  rw [reportsIfDue] at h
  cases hmmp : C.mmpFeature with
  | false =>
      simp only [hmmp] at h
      obtain ⟨hhb', hsr', hrr'⟩ := plainReportIfDue_deadlines hhb h
      refine ⟨hhb', hsr', fun _ hmoves => ?_⟩
      rcases hmoves with hlater | ⟨hfalse, -⟩
      · rw [hrr']
        exact hlater
      · cases hfalse
  | true =>
      cases hbuild : C.build with
      | ik =>
          simp only [hmmp, hbuild] at h
          obtain ⟨hhb', hsr'⟩ := senderReportIfDueIk_deadlines hsr h
          exact ⟨hhb', hsr', fun hxx => by cases hxx⟩
      | xx =>
          simp only [hmmp, hbuild] at h
          obtain ⟨⟨⟩, s₁, hsender, h⟩ := exists_of_run_bind h
          obtain ⟨hhb₁, hsr₁, hrr₁⟩ := senderReportIfDueXx_deadlines hsr hsender
          obtain ⟨hhb₂, hsr₂, hrr₂⟩ := receiverReportIfDueXx_deadlines hrr h
          refine ⟨hhb₂.trans hhb₁, by omega, fun _ hmoves => hrr₂ ?_⟩
          rw [hrr₁]
          exact hmoves.imp_right And.right

end

theorem checkLink_calls {s u : Steady H M} (h : (checkLink C).run s = .ok ⟨⟩ u) :
    u = { s with calls := s.calls + 1 } := by
  rw [checkLink] at h
  obtain ⟨t, s₁, hnow, h⟩ := exists_of_run_bind h
  cases hnow
  rw [run_get_bind] at h
  split at h
  · obtain ⟨⟨⟩, s₂, -, h⟩ := exists_of_run_bind h
    cases h
  · cases h
    rfl

theorem timer_deadlines (hclock : Monotone C.world.clock)
    (hhb : 0 < C.timing.heartbeatIntervalSecs) (hsr : ∀ m, 0 < C.mmp.senderReportInterval m)
    (hrr : ∀ m, 0 < C.mmp.receiverReportInterval m) {s u : Steady H M} (hmoves : RrMoves C s)
    (h : (iteration C .timer).run s = .ok ⟨⟩ u) : timerTime C s < baseDeadline C u := by
  rw [iteration] at h
  obtain ⟨⟨⟩, s₁, hlink, h⟩ := exists_of_run_bind h
  obtain rfl := checkLink_calls hlink
  rw [run_get_bind] at h
  change (onTimer C _).run _ = _ at h
  rw [onTimer] at h
  obtain ⟨t, s₂, hnow, h⟩ := exists_of_run_bind h
  obtain ⟨⟨⟩, s₃, hcutover, h⟩ := exists_of_run_bind h
  obtain ⟨⟨⟩, s₄, htrigger, h⟩ := exists_of_run_bind h
  obtain ⟨⟨⟩, s₅, hresend, h⟩ := exists_of_run_bind h
  obtain ⟨⟨⟩, s₆, hsweep, h⟩ := exists_of_run_bind h
  obtain ⟨⟨⟩, s₇, hbeat, h⟩ := exists_of_run_bind h
  obtain ⟨⟨⟩, s₈, hreports, h⟩ := exists_of_run_bind h
  have hbefore : Beside s₂ s₆ :=
    (((unobtrusive_timerCutover C t).beside hcutover).trans
      ((unobtrusive_rekeyIfTriggered C t).beside htrigger)).trans
      (((unobtrusive_resendOrAbandon C t).beside hresend).trans
        ((unobtrusive_sweep t).beside hsweep))
  have htick := ((unobtrusive_tickIfDue C _ t).beside h).deadlines_eq
  cases hnow
  have hcalls := hbefore.calls_le
  have hstanding := hbefore.deadlines_eq
  simp only [deadlines, Prod.mk.injEq] at hstanding htick
  obtain ⟨hhb₁, hsr₁, hrr₁⟩ := heartbeatOrLeave_deadlines hclock hhb rfl
    ((Nat.le_succ _).trans hcalls) hbeat
  obtain ⟨hhb₂, hsr₂, hrr₂⟩ := reportsIfDue_deadlines hhb hsr hrr hreports
  have hxx : C.build = .xx → timerTime C s < u.nextRr := by
    intro hbuild
    have hlater := hrr₂ hbuild
    rw [hrr₁, hstanding.2.2] at hlater
    rw [htick.2.2]
    exact hlater (hmoves hbuild)
  change timerTime C s < _ at hhb₁ hsr₂
  rw [baseDeadline]
  cases hbuild : C.build with
  | ik => exact lt_min (by omega) (by omega)
  | xx => exact lt_min (lt_min (by omega) (by omega)) (hxx hbuild)

end Steady

namespace Scenario

def noFloats : Floats where
  viaMillis x := x
  trendUsPerSec _ := 0
  meanBurst _ _ := 0

def measured (build : Build) (mmpFeature peerWantsRr : Bool) : Config PUnit MmpPeerState where
  suite := Additive.suite
  build := build
  mmpFeature := mmpFeature
  usizeBits := 64
  timing := NodeTiming.default
  nsec := (Additive.keypair 1).secret
  peerNpub := (Additive.keypair 3).pub
  rawFraming := true
  ourProfile := .leaf
  peerWantsSr := true
  peerWantsRr := peerWantsRr
  epoch := Block.replicate 8 1
  handler := quiet
  mmp := MmpPeerState.ops noFloats build
  world := { alice.world with clock := fun n => fromSecs n }

def measuredStart (C : Config PUnit MmpPeerState) : Steady PUnit MmpPeerState :=
  Steady.enter C (Block.replicate 32 7) (Block.replicate 32 8) 0 policy ⟨⟩ MmpPeerState.new 0

end Scenario

namespace Steady

end Steady
end Node
end Microfips

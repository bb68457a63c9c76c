import Microfips.Node.EpochTally

/-!
# The drain of a retired epoch

`prev_drain_base` is the instant at which the previous slot was demoted, or at which a frame was
last opened under it.  The sweep of the timer branch retires the slot once that is more than the
drain window ago, in whole seconds rounded down; the receive branch opens frames under the slot as
long as it is there.  So a frame is never opened too late where the clock reads whole seconds and,
whenever it has moved on, the timer branch is served before the receive branch.
-/

namespace Microfips
namespace Node

open Noise Wire Trace

variable {H M : Type} {C : Config H M}

theorem EpochSlot.SameEpoch.kr_eq {slot slot' : EpochSlot} (h : slot.SameEpoch slot') :
    slot'.kr = slot.kr := by
  rw [EpochSlot.SameEpoch] at h
  rw [h]

theorem map_kr_eq {slot slot' : Option EpochSlot} (h : Option.Rel EpochSlot.SameEpoch slot slot') :
    slot'.map EpochSlot.kr = slot.map EpochSlot.kr := by
  cases h with
  | none => rfl
  | some h => exact congrArg some h.kr_eq

structure SameDrain (a b : Accounts M) : Prop where
  cur : b.cur.kr = a.cur.kr
  prev : b.prev.map EpochSlot.kr = a.prev.map EpochSlot.kr
  base : b.prevDrainBase = a.prevDrainBase

namespace SameDrain

variable {a b c : Accounts M} {types : UInt8 → Prop}

theorem refl (a : Accounts M) : SameDrain a a :=
  ⟨rfl, rfl, rfl⟩

theorem trans (hab : SameDrain a b) (hbc : SameDrain b c) : SameDrain a c :=
  ⟨hbc.cur.trans hab.cur, hbc.prev.trans hab.prev, hbc.base.trans hab.base⟩

theorem booking (h : Booking C types a b) : SameDrain a b := by
  cases h with
  | «try» hcur _ hprev => exact ⟨hcur.kr_eq, map_kr_eq hprev, rfl⟩
  | _ => exact ⟨rfl, rfl, rfl⟩

theorem bookings (h : Relation.ReflTransGen (Booking C types) a b) : SameDrain a b := by
  induction h with
  | refl => exact .refl _
  | tail _ hstep ih => exact ih.trans (.booking hstep)

theorem counted (opened : DecryptedFrame) (now : ℕ) (a : Accounts M) :
    SameDrain a (a.counted C opened now) := by
  rw [Accounts.counted]
  split
  · exact ⟨rfl, rfl, rfl⟩
  · exact .refl _

end SameDrain

namespace Steady

namespace Moment

variable (C)

/-- The time of a point of a run: a frame is opened at the second reading of the clock since it was
handed to the frame loop, the timer branch goes by its own one. -/
def time : Moment H M → ℕ
  | frame _ s => C.world.clock (s.calls + 2)
  | timer s => C.world.clock (s.calls + 1)

/-- The epoch with the receive key `kr` is demoted, or opens a frame afterwards. -/
inductive Uses (kr : Block 32) : Moment H M → Prop where
  | demoted {f : Bytes} {s : Steady H M} {opened : DecryptedFrame}
      (h : OpensAs C f s opened .pend) (hkr : s.cur.kr = kr) : Uses kr (frame f s)
  | retired {s : Steady H M} (hself : s.pendSelf = true) (hpend : s.pend.isSome)
      (hkr : s.cur.kr = kr) : Uses kr (timer s)
  | opened {f : Bytes} {s : Steady H M} {opened : DecryptedFrame}
      (h : OpensAs C f s opened .prev) (hkr : s.prev.map EpochSlot.kr = some kr) :
      Uses kr (frame f s)

def served (entered : ℕ) : List (Moment H M) → ℕ
  | [] => entered
  | frame _ _ :: past => served entered past
  | timer s :: _ => time C (timer s)

/-- A frame is handled at the time of the last pass of the timer branch. -/
def TimerFirst (entered : ℕ) (past : List (Moment H M)) (m : Moment H M) : Prop :=
  m.FrameHas fun f s => time C (frame f s) = served C entered past

instance (entered : ℕ) (past : List (Moment H M)) (m : Moment H M) :
    Decidable (TimerFirst C entered past m) :=
  match m with
  | frame f s => inferInstanceAs (Decidable (time C (frame f s) = served C entered past))
  | timer _ => inferInstanceAs (Decidable True)

end Moment

variable (C)

/-- What a point of a run does to the drain: nothing, or the drain starts anew with a use of the
epoch, or the sweep retires it. -/
inductive Drains (m : Moment H M) (b : Accounts M) : Prop where
  | same (h : SameDrain m.state.accounts b)
  | restart {kr : Block 32} (huse : m.Uses C kr) (hprev : b.prev.map EpochSlot.kr = some kr)
      (hbase : b.prevDrainBase = m.time C)
  | swept (hprev : b.prev = none)
      (hbase : b.prevDrainBase = m.state.prevDrainBase ∨ b.prevDrainBase = m.time C)

variable {C}

variable {m : Moment H M} {s : Steady H M}

theorem Drains.trans {a b : Accounts M} (h : Drains C m a) (hab : SameDrain a b) :
    Drains C m b := by
  cases h with
  | same h => exact .same (h.trans hab)
  | restart huse hprev hbase => exact .restart huse (hab.prev.trans hprev) (hab.base.trans hbase)
  | swept hprev hbase =>
      refine .swept ?_ ?_
      · rw [← Option.map_eq_none_iff, hab.prev, hprev, Option.map_none]
      · rw [hab.base]
        exact hbase

theorem Drains.sweep {a : Accounts M} (h : Drains C m a) : Drains C m { a with prev := none } := by
  refine .swept rfl ?_
  cases h with
  | same h => exact .inl h.base
  | restart _ _ hbase => exact .inr hbase
  | swept _ hbase => exact hbase

theorem drains_handleFrame (frame : Bytes) (s : Steady H M) :
    Drains C (.frame frame s) ((handleFrame C frame).run s).state.accounts := by
  have htypes : Ordinary C fun _ => True := .all
  obtain hbooked | ⟨opened, winner, t, hopens, hopened, hrun⟩ := handleFrame_split htypes frame s
  · exact .same (.bookings hbooked)
  · obtain ⟨a, b, now, ha, htaken, hb⟩ := hopened.accepted htypes fun _ _ _ _ _ => trivial
    have hsame : SameDrain s.accounts a := .bookings (.head (limited_booking s) ha)
    rw [hrun]
    refine Drains.trans ?_ ((SameDrain.counted opened now b).trans (.bookings hb))
    cases htaken with
    | cur => exact .same ⟨hsame.cur, hsame.prev, hsame.base⟩
    | pend _ _ => exact .restart (.demoted hopens rfl) (congrArg some hsame.cur) rfl
    | @prev slot hprev =>
        refine .restart (.opened hopens ?_) (congrArg (Option.map EpochSlot.kr) hprev) rfl
        rw [← show _ = Option.map EpochSlot.kr s.prev from hsame.prev, hprev]
        rfl

theorem drains_timer (s : Steady H M) :
    Drains C (.timer s) ((iteration C .timer).run s).state.accounts := by
  have htypes : Ordinary C fun _ => True := .all
  have hbooked {α : Type} {m : Action H M α} (hm : Booked C (fun _ => True) m) :
      KeepsAccounts (Drains C (.timer s)) m :=
    fun u hu => hu.trans (.bookings (hm u))
  have hsweep (t : ℕ) : KeepsAccounts (Drains C (.timer s)) (sweep t : Action H M PUnit) := by
    refine EStateM.Keeps.modify fun u hu => ?_
    split
    · exact hu.sweep
    · exact hu
  rw [iteration]
  cases hlink : (checkLink C).run s with
  | error e t =>
      have hsame := SameDrain.bookings (booked_checkLink htypes s)
      rw [hlink] at hsame
      rw [EStateM.run_bind_error hlink]
      exact .same hsame
  | ok _ t =>
      obtain rfl := checkLink_calls hlink
      rw [EStateM.run_bind_ok hlink, EStateM.run_get_bind]
      change Drains C (.timer s) (EStateM.run (onTimer C _) _).state.accounts
      rw [onTimer, run_now_bind]
      obtain ⟨u, hrun, hu⟩ := timerCutover_accounts (C := C) (C.world.clock (s.calls + 1))
        { s with calls := s.calls + 2 }
      have hdrains : Drains C (.timer s) u.accounts := by
        rcases hu with hu | ⟨slot, resetAt, hself, hpend, hu⟩
        · rw [hu]
          exact .same (.refl _)
        · rw [hu]
          exact .restart (.retired hself (Option.isSome_of_eq_some hpend) rfl) rfl rfl
      rw [EStateM.run_bind_ok hrun]
      refine KeepsAccounts.bind (hbooked (booked_rekeyIfTriggered C _)) (fun _ => ?_) u hdrains
      refine (hbooked (booked_resendOrAbandon C _)).bind fun _ => ?_
      refine (hsweep _).bind fun _ => ?_
      refine (hbooked (booked_heartbeatOrLeave htypes _)).bind fun _ => ?_
      refine (hbooked (booked_reportsIfDue htypes _)).bind fun _ => ?_
      exact hbooked (booked_tickIfDue htypes _ _)

theorem swept_timer {u : Steady H M} (hrun : (iteration C .timer).run s = .ok ⟨⟩ u) :
    u.prev = none ∨ asSecs (C.world.clock (s.calls + 1) - u.prevDrainBase) ≤ drainWindowSecs := by
  have htypes : Ordinary C fun _ => True := .all
  rw [iteration_timer_eq, beforeHeartbeat] at hrun
  simp only [bind_assoc] at hrun
  obtain ⟨⟨⟩, s₁, hlink, hrun⟩ := EStateM.exists_of_run_bind hrun
  obtain rfl := checkLink_calls hlink
  rw [EStateM.run_get_bind, run_now_bind] at hrun
  obtain ⟨⟨⟩, s₂, -, hrun⟩ := EStateM.exists_of_run_bind hrun
  obtain ⟨⟨⟩, s₃, -, hrun⟩ := EStateM.exists_of_run_bind hrun
  obtain ⟨⟨⟩, s₄, -, hrun⟩ := EStateM.exists_of_run_bind hrun
  obtain ⟨⟨⟩, s₅, hsweep, hrun⟩ := EStateM.exists_of_run_bind hrun
  rw [pure_bind] at hrun
  have hrest : Booked C (fun _ => True) (do
      heartbeatOrLeave C (C.world.clock (s.calls + 1))
      reportsIfDue C (C.world.clock (s.calls + 1))
      tickIfDue C (C.handler.pollAt s.handler) (C.world.clock (s.calls + 1))) := by
    refine (booked_heartbeatOrLeave htypes _).bind fun _ => ?_
    refine (booked_reportsIfDue htypes _).bind fun _ => ?_
    exact booked_tickIfDue htypes _ _
  have hsame := SameDrain.bookings (hrest s₅)
  rw [show EStateM.run _ s₅ = _ from hrun] at hsame
  have hswept : s₅.prev = none ∨
      asSecs (C.world.clock (s.calls + 1) - s₅.prevDrainBase) ≤ drainWindowSecs := by
    have hs₅ : (if drainWindowSecs < asSecs (C.world.clock (s.calls + 1) - s₄.prevDrainBase) then
        { s₄ with prev := none } else s₄) = s₅ := (EStateM.Result.ok.inj hsweep).2
    rw [← hs₅]
    split
    · exact .inl rfl
    · rename_i hkeep
      exact .inr (not_lt.mp hkeep)
  rw [show u.prevDrainBase = s₅.prevDrainBase from hsame.base]
  refine hswept.imp_left fun hnone => ?_
  have hmap : u.prev.map EpochSlot.kr = s₅.prev.map EpochSlot.kr := hsame.prev
  rwa [hnone, Option.map_none, Option.map_eq_none_iff] at hmap

/-! ## The drain along a run -/

/-- At the time `now` the previous slot is gone or its drain window is not over, and the window
began at a whole second. -/
structure Drained (now : ℕ) (a : Accounts M) : Prop where
  within : a.prev = none ∨ now ≤ a.prevDrainBase + fromSecs drainWindowSecs
  whole : ticksPerSecond ∣ a.prevDrainBase

theorem Drained.congr {now : ℕ} {a b : Accounts M} (h : Drained now a) (hab : SameDrain a b) :
    Drained now b := by
  constructor
  · rw [hab.base]
    refine h.within.imp_left fun hnone => ?_
    rw [← Option.map_eq_none_iff, hab.prev, hnone, Option.map_none]
  · rw [hab.base]
    exact h.whole

theorem Drains.whole (hwhole : ∀ n, ticksPerSecond ∣ C.world.clock n) {b : Accounts M}
    (h : Drains C m b) (hm : ticksPerSecond ∣ m.state.prevDrainBase) :
    ticksPerSecond ∣ b.prevDrainBase := by
  have htime : ticksPerSecond ∣ m.time C := by
    cases m with
    | frame _ s => exact hwhole _
    | timer s => exact hwhole _
  cases h with
  | same h => exact h.base ▸ hm
  | restart _ _ hbase => exact hbase ▸ htime
  | swept _ hbase =>
      rcases hbase with hbase | hbase
      · exact hbase ▸ hm
      · exact hbase ▸ htime

theorem carried_drained (hwhole : ∀ n, ticksPerSecond ∣ C.world.clock n) (entered : ℕ) :
    Carried C (fun _ => True) (Moment.TimerFirst C entered)
      fun past => Drained (Moment.served C entered past) where
  ordinary := .all
  booking _ _ _ ha hstep := ha.congr (.booking hstep)
  frame past frame s htime hs := by
    have hdrains := drains_handleFrame (C := C) frame s
    refine ⟨?_, hdrains.whole hwhole hs.whole⟩
    cases hdrains with
    | same h => exact (hs.congr h).within
    | restart _ _ hbase =>
        refine .inr ?_
        rw [hbase, show Moment.time C (.frame frame s) = _ from htime]
        exact Nat.le_add_right _ _
    | swept hprev _ => exact .inl hprev

theorem drained_timer (hwhole : ∀ n, ticksPerSecond ∣ C.world.clock n) {u : Steady H M}
    (hs : ticksPerSecond ∣ s.prevDrainBase) (hrun : (iteration C .timer).run s = .ok ⟨⟩ u) :
    Drained (C.world.clock (s.calls + 1)) u.accounts := by
  have hdrains := drains_timer (C := C) s
  rw [hrun] at hdrains
  have hbase : ticksPerSecond ∣ u.prevDrainBase := hdrains.whole hwhole hs
  refine ⟨(swept_timer hrun).imp_right fun hkeep => ?_, hbase⟩
  obtain ⟨m, hm⟩ := hwhole (s.calls + 1)
  obtain ⟨n, hn⟩ := hbase
  change C.world.clock (s.calls + 1) ≤ u.prevDrainBase + fromSecs drainWindowSecs
  simp only [asSecs, fromSecs, drainWindowSecs, ticksPerSecond] at hkeep hm hn ⊢
  omega

variable (C)

/-- The drain of the previous slot is reckoned from a use of its epoch. -/
def DrainsSince (past : List (Moment H M)) (a : Accounts M) : Prop :=
  ∀ kr, a.prev.map EpochSlot.kr = some kr → ∃ m ∈ past, m.Uses C kr ∧ m.time C = a.prevDrainBase

variable {C}

theorem DrainsSince.step {past : List (Moment H M)} {b : Accounts M}
    (h : DrainsSince C past m.state.accounts) (hdrains : Drains C m b) :
    DrainsSince C (m :: past) b := by
  intro kr hkr
  cases hdrains with
  | same hsame =>
      obtain ⟨m', hm', huse, htime⟩ := h kr (hsame.prev ▸ hkr)
      exact ⟨m', List.mem_cons_of_mem _ hm', huse, htime.trans hsame.base.symm⟩
  | restart huse hprev hbase =>
      obtain rfl := Option.some.inj (hprev.symm.trans hkr)
      exact ⟨m, List.mem_cons_self, huse, hbase.symm⟩
  | swept hprev _ =>
      rw [hprev] at hkr
      cases hkr

theorem carried_drainsSince : Carried C (fun _ => True) (fun _ _ => True) (DrainsSince C) where
  ordinary := .all
  booking _ a b ha hstep kr hkr := by
    have hsame := SameDrain.booking hstep
    obtain ⟨m, hm, huse, htime⟩ := ha kr (hsame.prev ▸ hkr)
    exact ⟨m, hm, huse, htime.trans hsame.base.symm⟩
  frame _ frame s _ hs := hs.step (drains_handleFrame frame s)

theorem drained_along (hwhole : ∀ n, ticksPerSecond ∣ C.world.clock n) {s₀ : Steady H M}
    (hs : Entered C s₀) (inputs : List Input) {entered : ℕ}
    (hfirst : Along (Moment.TimerFirst C entered) [] (timeline C inputs s₀)) :
    Along (fun past m => Drained (Moment.served C entered past) m.state.accounts) []
      (timeline C inputs s₀) := by
  refine (carried_drained hwhole entered).along ?_ inputs hfirst ?_
  · intro _ s u _ hs hrun
    exact drained_timer hwhole hs.whole hrun
  · obtain ⟨ks, kr, them, policy, handler, mmp, calls⟩ := hs
    exact ⟨.inl rfl, hwhole _⟩

theorem drainsSince_along {s₀ : Steady H M} (hs : Entered C s₀) (inputs : List Input) :
    Along (fun past m => DrainsSince C past m.state.accounts) [] (timeline C inputs s₀) := by
  refine carried_drainsSince.along ?_ inputs (along_of_forall_mem fun _ _ => trivial) ?_
  · intro _ s u _ hs hrun
    have hdrains := drains_timer (C := C) s
    rw [hrun] at hdrains
    exact hs.step hdrains
  · obtain ⟨ks, kr, them, policy, handler, mmp, calls⟩ := hs
    rintro kr ⟨⟩

variable (C)

def prevOpens (frame : Bytes) (s : Steady H M) : Bool :=
  (s.policy.checkFrameRate (C.world.clock s.calls)).1 = .allow &&
    match (openFrame C frame).run (limited C s) with
    | .ok (some (_, .prev)) _ => true
    | _ => false

/-- The last point of a run is a frame that the previous slot opens, and every point before it at
which that slot may be used is more than the drain window ago. -/
def opensLate (ms : List (Moment H M)) : Bool :=
  match ms.reverse with
  | .frame frame s :: past => prevOpens C frame s && past.all fun
      | .frame f u => Moment.time C (.frame f u) + fromSecs drainWindowSecs <
          Moment.time C (.frame frame s)
      | .timer u => !u.pendSelf
  | _ => false

variable {C}

theorem opensAs_of_prevOpens {frame : Bytes} (h : prevOpens C frame s = true) :
    ∃ opened, OpensAs C frame s opened .prev := by
  rw [prevOpens, Bool.and_eq_true, decide_eq_true_iff] at h
  obtain ⟨hrate, h⟩ := h
  split at h
  · rename_i hrun
    exact ⟨_, opensAs_of_openFrame hrate hrun⟩
  · cases h

theorem exists_of_opensLate {ms : List (Moment H M)} (h : opensLate C ms = true) :
    ∃ before frame s opened, ms = before ++ [.frame frame s] ∧ OpensAs C frame s opened .prev ∧
      ∀ kr, ∀ m ∈ before, m.Uses C kr →
        m.time C + fromSecs drainWindowSecs < Moment.time C (.frame frame s) := by
  rw [opensLate] at h
  split at h
  · rename_i frame s past hms
    rw [Bool.and_eq_true, List.all_eq_true] at h
    obtain ⟨opened, hopens⟩ := opensAs_of_prevOpens h.1
    refine ⟨past.reverse, frame, s, opened, ?_, hopens, fun kr m hm huse => ?_⟩
    · rw [← List.reverse_reverse ms, hms, List.reverse_cons]
    · have hall := h.2 m (List.mem_reverse.mp hm)
      cases huse with
      | demoted _ _ => exact of_decide_eq_true hall
      | opened _ _ => exact of_decide_eq_true hall
      | retired hself _ _ => simp [hself] at hall
  · cases h

end Steady

namespace Scenario

/-- `bob` with a clock that stands still until a pass of the timer branch behind the first two
frames of the rekey, and reads `t` from then on. -/
def bobUntil (t : ℕ) : Config PUnit PUnit :=
  { bob with world := { bob.world with clock := fun n => if n < 28 then 0 else t } }

theorem bobUntil_whole (k n : ℕ) : ticksPerSecond ∣ (bobUntil (fromSecs k)).world.clock n := by
  change ticksPerSecond ∣ if n < 28 then 0 else fromSecs k
  split
  · exact dvd_zero _
  · exact dvd_mul_right _ _

theorem start_entered (C : Config PUnit PUnit) (ks kr : UInt8) :
    Steady.Entered C (start C ks kr) :=
  .intro _ _ _ _ _ _ _

def bobLate : List Steady.Input := [.recv aliceMsg1, .recv aliceProof, .recv aliceStraggler]

def bobServed : List Steady.Input :=
  [.recv aliceMsg1, .recv aliceProof, .timer, .recv aliceStraggler]

end Scenario

namespace Steady

end Steady
end Node
end Microfips

import Microfips.Node.Negotiated
import Microfips.Node.Panic

/-!
# How long a handshake waits for msg2

`handshake_ik` and `handshake_xx` count the timeouts of the loop in which they wait for msg2, and
give up behind `handshake_max_resends` of them.  Every frame sets the count back to zero before it
is looked at, also a frame that the loop then passes over.  So the loop ends behind that many
timeouts in a row, and a peer that keeps sending frames the handshake has no use for keeps it
waiting.
-/

namespace Microfips
namespace Node

open Noise Wire EStateM

namespace Handshake

variable {H M : Type} (C : Config H M)

/-! ### What ends a wait -/

/-- A wait of the loops ends with a frame or with a timeout. -/
inductive Wakeup where
  | frame (frame : Bytes)
  | timeout
  deriving DecidableEq

def wakeupsIn (phase : Phase) (r : Reception) (s : Handshake H) : List Wakeup :=
  match r with
  | .timeout => [.timeout]
  | r => (receiveSteps C phase r s).map fun step => .frame step.frame

def wakeups : List Reception → Phase → Handshake H → List Wakeup
  | [], _, _ => []
  | r :: rs, phase, s =>
      wakeupsIn C phase r s ++
        match (receive C phase r).run s with
        | .ok (.waits phase') t => wakeups rs phase' t
        | _ => []

def runWakeups (receptions : List Reception) (s : Handshake H) : List Wakeup :=
  match (begin C).run s with
  | .ok phase t => wakeups C receptions phase t
  | .error _ _ => []

/-- Our msg1 has gone out, and a competing one loses against it. -/
def Prevails (peerSentFirst : Bool) : Prop :=
  ∃ myPub, ecdhPubkey C.suite C.nsec = .ok myPub ∧ myAddr C myPub ≠ peerAddr C ∧
    peerSentFirst = false ∧ (myAddr C myPub).bytes < (peerAddr C).bytes

/-- A frame that the loop passes over: an established frame, a msg3 or a losing msg1. -/
def Ignored (peerSentFirst : Bool) (frame : Bytes) : Prop :=
  match parseMessage C.build frame with
  | some (.msg1 _ _) => Prevails C peerSentFirst
  | some (.msg3 _ _ _) => True
  | some (.established _ _ _) => True
  | _ => False

def QuietAfterTimeout (ws : List Wakeup) : Prop :=
  ws.Pairwise fun a b => a = .timeout → b = .timeout

instance (ws : List Wakeup) : Decidable (QuietAfterTimeout ws) :=
  inferInstanceAs (Decidable (List.Pairwise _ ws))

variable {C} {first : Bool} {n : ℕ} {o : Opening} {s : Handshake H}

/-! ### Frames -/

theorem onFrame_ignored (hs : s.peerSentFirst = first) (ho : PhaseSound C (.opening o))
    {frame : Bytes} (hframe : Ignored C first frame) :
    (onFrame C (.opening o) frame).run s =
      .ok (.waits (.opening { o with resendCount := 0 })) s := by
  rw [Ignored] at hframe
  rw [onFrame, onFrameOpening]
  cases hparse : parseMessage C.build frame with
  | none =>
      rw [hparse] at hframe
      cases hframe
  | some message =>
      rw [hparse] at hframe
      cases message with
      | msg1 idx np =>
          obtain ⟨myPub, hpub, hne, hfirst, hlt⟩ := hframe
          cases Except.ok.inj (hpub.symm.trans ho)
          dsimp only
          rw [onMsg1, run_get_bind, if_neg hne, if_pos ⟨hs.trans hfirst, hlt⟩]
          rfl
      | msg2 => cases hframe
      | msg3 => rfl
      | established => rfl

theorem recvFrame_run (hs : Sound first n s) :
    ∃ r t, (recvFrame C).run s = .ok r t ∧ Sound first n t := by
  obtain ⟨r, t, hrun, ht, -⟩ | ⟨e, t, hrun, -⟩ := (provides_recvFrame (C := C) s hs).cases
  · exact ⟨r, t, hrun, ht⟩
  · rw [recvFrame, run_get_bind, if_neg (Nat.not_lt.mpr hs.within)] at hrun
    dsimp only at hrun
    split at hrun
    · cases hrun
    · cases hrun

/-- The loop passes over ignored frames, and the first of them sets the count back. -/
theorem drain_ignored {fuel : ℕ} (hs : Sound first n s) (ho : PhaseSound C (.opening o))
    (hignored : ∀ step ∈ drainSteps C fuel (.opening o) s, Ignored C first step.frame) :
    ∃ k t, (drain C fuel (.opening o)).run s =
      .ok (.waits (.opening { o with resendCount := k })) t ∧
      Sound first n t ∧
      (k = o.resendCount ∨ k = 0 ∧ drainSteps C fuel (.opening o) s ≠ []) := by
  induction fuel generalizing o s with
  | zero => exact ⟨o.resendCount, s, rfl, hs, .inl rfl⟩
  | succ fuel ih =>
      obtain ⟨r, t, hrecv, ht⟩ := recvFrame_run (C := C) hs
      rw [drainSteps, hrecv] at hignored
      rw [drain, run_bind_ok hrecv, drainSteps, hrecv]
      cases r with
      | none => exact ⟨o.resendCount, t, rfl, ht, .inl rfl⟩
      | some frame =>
          dsimp only at hignored ⊢
          have hon := onFrame_ignored (C := C) ht.peerSentFirst_eq ho
            (hignored _ List.mem_cons_self)
          rw [hon] at hignored
          rw [run_bind_ok hon]
          obtain ⟨k, u, hu, hsound, hk⟩ := ih (o := { o with resendCount := 0 }) ht ho
            fun step hstep => hignored step (List.mem_cons_of_mem _ hstep)
          have hzero : k = 0 := by
            rcases hk with hk | hk
            · exact hk
            · exact hk.1
          exact ⟨k, u, hu, hsound, .inr ⟨hzero, List.cons_ne_nil _ _⟩⟩

theorem receive_ignored {data : Bytes} (hs : Sound first n s) (ho : PhaseSound C (.opening o))
    (hlen : data.length ≤ Steady.recvBufSize)
    (hignored : ∀ frame, .frame frame ∈ wakeupsIn C (.opening o) (.chunk data) s →
      Ignored C first frame) :
    ∃ k t, (receive C (.opening o) (.chunk data)).run s =
        .ok (.waits (.opening { o with resendCount := k })) t ∧
      Sound first n t ∧
      (k = o.resendCount ∨
        k = 0 ∧ ∃ frame, .frame frame ∈ wakeupsIn C (.opening o) (.chunk data) s) := by
  rw [receive, run_get_bind, if_neg (Nat.not_lt.mpr hlen), run_set_bind]
  have hsound : Sound first n { s with toRecvBuffer := s.toRecvBuffer.store C.rawFraming data } :=
    ⟨hs.within.store data, hs.peerSentFirst_eq, hs.calls_le⟩
  have hmem (step : Step) (hstep : step ∈ receiveSteps C (.opening o) (.chunk data) s) :
      .frame step.frame ∈ wakeupsIn C (.opening o) (.chunk data) s :=
    List.mem_map.mpr ⟨step, hstep, rfl⟩
  obtain ⟨k, t, hrun, ht, hk⟩ := drain_ignored (C := C) hsound ho
    fun step hstep => hignored step.frame (hmem step hstep)
  refine ⟨k, t, hrun, ht, ?_⟩
  rcases hk with hk | ⟨hk, hne⟩
  · exact .inl hk
  · obtain ⟨step, hstep⟩ := List.exists_mem_of_ne_nil _ hne
    exact .inr ⟨hk, step.frame, hmem step hstep⟩

/-! ### Timeouts -/

theorem receive_timeout (hs : Sound first n s) :
    (∃ e t, (receive C (.opening o) .timeout).run s = .error (.err e) t) ∨
      o.resendCount + 1 ≤ C.timing.handshakeMaxResends ∧
        ∃ t, (receive C (.opening o) .timeout).run s =
            .ok (.waits (.opening { o with resendCount := o.resendCount + 1 })) t ∧
          Sound first n t := by
  rw [receive, onTimeout, onTimeoutOpening, bind_assoc, bind_assoc, run_get_bind]
  by_cases hmax : C.timing.handshakeMaxResends < o.resendCount + 1
  · rw [if_pos hmax]
    exact .inl ⟨_, _, rfl⟩
  · rw [if_neg hmax]
    have hle := Nat.le_of_not_lt hmax
    cases hfirst : s.peerSentFirst with
    | true => exact .inr ⟨hle, s, rfl, hs⟩
    | false =>
        rw [if_neg (by decide)]
        obtain ⟨u, t, hsend, ht⟩ | ⟨e, t, hsend, -⟩ :=
          (maintains_sendFrame (C := C) o.msg1 s hs).cases
        · refine .inr ⟨hle, t, ?_, ht⟩
          rw [bind_assoc, run_bind_ok hsend]
          rfl
        · refine .inl ⟨e, t, ?_⟩
          rw [bind_assoc, run_bind_error hsend]

/-- A loop that has counted `o.resendCount` timeouts ends behind `handshake_max_resends` in all, if
no frame comes behind a timeout. -/
theorem await_bounded {receptions : List Reception} (hs : Sound first n s)
    (ho : PhaseSound C (.opening o))
    (hchunks : ∀ data, .chunk data ∈ receptions → data.length ≤ Steady.recvBufSize)
    (hignored : ∀ frame, .frame frame ∈ wakeups C receptions (.opening o) s → Ignored C first frame)
    (hquiet : QuietAfterTimeout (wakeups C receptions (.opening o) s))
    (hcounted : 0 < o.resendCount → ∀ frame, .frame frame ∉ wakeups C receptions (.opening o) s)
    (hle : o.resendCount ≤ C.timing.handshakeMaxResends)
    (htimeouts : C.timing.handshakeMaxResends < o.resendCount + receptions.count .timeout) :
    ∃ e t, (await C receptions (.opening o)).run s = .error (.err e) t := by
  induction receptions generalizing o s with
  | nil =>
      rw [List.count_nil] at htimeouts
      omega
  | cons r rs ih =>
      have hchunks' : ∀ data, .chunk data ∈ rs → data.length ≤ Steady.recvBufSize :=
        fun data hdata => hchunks data (List.mem_cons_of_mem r hdata)
      rw [wakeups] at hignored hquiet hcounted
      rw [await]
      cases r with
      | closed => exact ⟨_, _, rfl⟩
      | timeout =>
          obtain ⟨e, t, hrun⟩ | ⟨hle', t, hrun, ht⟩ := receive_timeout (C := C) hs
          · exact ⟨e, t, run_bind_error hrun⟩
          · rw [hrun] at hignored hquiet
            rw [run_bind_ok hrun]
            rw [List.count_cons_self] at htimeouts
            obtain ⟨hall, hquiet'⟩ := List.pairwise_cons.mp hquiet
            refine ih ht ho hchunks'
              (fun frame hframe => hignored frame (List.mem_cons_of_mem _ hframe)) hquiet' ?_ hle'
              (by dsimp only; omega)
            intro _ frame hframe
            cases hall _ hframe rfl
      | chunk data =>
          have hlen : data.length ≤ Steady.recvBufSize := hchunks data List.mem_cons_self
          obtain ⟨k, t, hrun, ht, hk⟩ := receive_ignored (C := C) hs ho hlen
            fun frame hframe => hignored frame (List.mem_append_left _ hframe)
          have hcount : k = o.resendCount := by
            rcases hk with hk | ⟨hk, frame, hframe⟩
            · exact hk
            · by_contra hne
              exact hcounted (by omega) frame (List.mem_append_left _ hframe)
          subst hcount
          rw [hrun] at hignored hquiet hcounted
          rw [run_bind_ok hrun]
          rw [List.count_cons_of_ne (by rintro ⟨⟩)] at htimeouts
          exact ih ht ho hchunks' (fun frame hframe =>
            hignored frame (List.mem_append_right _ hframe))
            (List.pairwise_append.mp hquiet).2.1
            (fun hpos frame hframe => hcounted hpos frame (List.mem_append_right _ hframe)) hle
            htimeouts

theorem begin_opening {phase : Phase} {t : Handshake H} (h : (begin C).run s = .ok phase t) :
    ∃ o, phase = .opening o ∧ o.resendCount = 0 := by
  rw [begin] at h
  obtain ⟨myPub, s₁, -, h₁⟩ := exists_of_run_bind h
  obtain ⟨eph, s₂, -, h₂⟩ := exists_of_run_bind h₁
  obtain ⟨r, s₃, -, h₃⟩ := exists_of_run_bind h₂
  obtain ⟨ourIndex, s₄, -, h₄⟩ := exists_of_run_bind h₃
  obtain ⟨msg1, s₅, -, h₅⟩ := exists_of_run_bind h₄
  rw [run_get_bind] at h₅
  split at h₅
  · obtain ⟨rfl, -⟩ := Result.ok.inj h₅
    exact ⟨_, rfl, rfl⟩
  · obtain ⟨_, s₆, -, h₆⟩ := exists_of_run_bind h₅
    obtain ⟨_, s₇, -, hpure⟩ := exists_of_run_bind h₆
    obtain ⟨rfl, -⟩ := Result.ok.inj hpure
    exact ⟨_, rfl, rfl⟩

end Handshake

namespace Scenario

def aliceOf (build : Build) : Config PUnit PUnit := { alice with build := build }

def early (build : Build) : Bytes :=
  buildEstablishedHeader build 0 0 0 16 ++ List.replicate 16 0

def earlyThenSilent (build : Build) : List Reception :=
  .chunk (early build) :: List.replicate 11 .timeout

def interrupted (build : Build) (rounds : ℕ) : List Reception :=
  (List.replicate rounds [.timeout, .chunk (early build)]).flatten

theorem ignored_early (build : Build) : Handshake.Ignored (aliceOf build) false (early build) := by
  cases build with
  | ik => exact trivial
  | xx => exact trivial

theorem runWakeups_earlyThenSilent (build : Build) :
    Handshake.runWakeups (aliceOf build) (earlyThenSilent build) (fresh false) =
      .frame (early build) :: List.replicate 11 .timeout := by
  cases build with
  | ik => decide +kernel
  | xx => decide +kernel

end Scenario

open Handshake in
/-- A handshake that receives nothing but frames that it passes over, and none of them behind a
timeout, returns an error behind `handshake_max_resends + 1` timeouts at the latest.  The count is
a `u32` of the source, which never passes a limit of `u32::MAX`. -/
theorem handshake_attempts_bounded {H M : Type} (C : Config H M) (s : Handshake H)
    (receptions : List Reception) (_ : C.timing.handshakeMaxResends < 2 ^ 32 - 1)
    (hchunks : ∀ data, .chunk data ∈ receptions → data.length ≤ Steady.recvBufSize)
    (hignored : ∀ frame, .frame frame ∈ runWakeups C receptions { s with toRecvBuffer := .empty } →
      Ignored C s.peerSentFirst frame)
    (hquiet : QuietAfterTimeout (runWakeups C receptions { s with toRecvBuffer := .empty }))
    (htimeouts : C.timing.handshakeMaxResends + 1 ≤ receptions.count .timeout) :
    ∃ e t, (Handshake.run C receptions).run { s with toRecvBuffer := .empty } =
      .error (.err e) t := by
  have hstart : Sound s.peerSentFirst s.calls { s with toRecvBuffer := .empty } :=
    ⟨le_rfl, rfl, le_rfl⟩
  rw [Handshake.run]
  obtain ⟨phase, t, hbegin, ht, hphase⟩ | ⟨e, t, hbegin, -⟩ :=
    (provides_begin (C := C) _ hstart).cases
  · rw [runWakeups, hbegin] at hignored hquiet
    rw [run_bind_ok hbegin]
    obtain ⟨o, rfl, hzero⟩ := begin_opening hbegin
    apply await_bounded ht hphase hchunks hignored hquiet
    · intro hpos
      omega
    · omega
    · omega
  · exact ⟨e, t, run_bind_error hbegin⟩

open Scenario Handshake in
theorem handshake_attempts_bounded_early :
    (∃ e t, (Handshake.run (aliceOf .ik) (earlyThenSilent .ik)).run (fresh false) =
        .error (.err e) t) ∧
      ∃ e t, (Handshake.run (aliceOf .xx) (earlyThenSilent .xx)).run (fresh false) =
        .error (.err e) t := by
  have hbounded (build : Build) : ∃ e t,
      (Handshake.run (aliceOf build) (earlyThenSilent build)).run (fresh false) =
        .error (.err e) t := by
    have hwakeups := runWakeups_earlyThenSilent build
    apply handshake_attempts_bounded (aliceOf build) (fresh false) (earlyThenSilent build)
    · exact (by decide : 10 < 2 ^ 32 - 1)
    · intro data hdata
      cases hdata with
      | head => cases build <;> decide +kernel
      | tail _ hdata => cases List.eq_of_mem_replicate hdata
    · intro frame hmem
      rcases List.mem_cons.mp (hwakeups ▸ hmem) with hframe | htimeout
      · rw [Wakeup.frame.inj hframe]
        exact ignored_early build
      · cases List.eq_of_mem_replicate htimeout
    · exact hwakeups.symm ▸ List.pairwise_cons.mpr ⟨by rintro _ _ ⟨⟩, by decide⟩
    · exact (by decide : 11 ≤ (List.replicate 11 Reception.timeout).count .timeout)
  exact ⟨hbounded .ik, hbounded .xx⟩

def Handshake.waitsForMsg2 {H : Type} :
    Result (Fault ProtocolError) (Handshake H) (Progress × List Reception) → Bool
  | .ok (.waits (.opening _), _) _ => true
  | _ => false

open Scenario Handshake in
/-- With a frame behind every timeout the handshake still waits behind more timeouts than its limit
allows. -/
theorem handshake_attempts_unbounded :
    (∀ build, Ignored (aliceOf build) false (early build)) ∧
    (∀ build, runWakeups (aliceOf build) (interrupted build 12) (fresh false) =
        (List.replicate 12 [.timeout, .frame (early build)]).flatten) ∧
      (∀ build, (aliceOf build).timing.handshakeMaxResends + 1 <
        (interrupted build 12).count .timeout) ∧
      ∀ build, waitsForMsg2 ((Handshake.run (aliceOf build) (interrupted build 12)).run
        (fresh false)) = true := by
  refine ⟨ignored_early, ?_, ?_, ?_⟩
  all_goals
    intro build
    cases build with
    | ik => decide +kernel
    | xx => decide +kernel

end Node
end Microfips

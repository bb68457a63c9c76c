import Microfips.Node.Gating

/-!
# Peers that are taken to be silent

A session that has run for longer than the dead-link timeout is ended behind a heartbeat of the
timer branch if the policy has counted heartbeats of the peer and no data frames.  Data frames are
counted where the node sends a link message, not where it receives one: a datagram that the handler
takes without an answer leaves no trace in the policy.
-/

namespace Microfips
namespace Node

open Noise Wire Mmp

variable {H M : Type} (C : Config H M)

namespace Steady

/-- In `s` the frame is opened and handed on, and it is a session datagram. -/
def BringsDatagram (frame : Bytes) (s : Steady H M) (payload : Bytes) : Prop :=
  ∃ opened winner, OpensAs C frame s opened winner ∧ opened.msgType = msgSessionDatagram ∧
    opened.payload = payload

/-- The handler answers the datagram with one of its own, whenever it is given to it. -/
def Answers (handler : H) (payload : Bytes) : Prop :=
  ∀ now, ∃ data handler', C.handler.onMessage now msgSessionDatagram payload handler =
    (.sendDatagram data, handler')

variable {C}

theorem kept_dataFrame :
    Kept C (fun _ => True) (fun _ _ => True) fun a => 0 < a.policy.dataFramesRecv where
  ordinary := .all
  booking a b ha hstep := by
    cases hstep with
    | count h => exact h ha
    | _ => exact ha
  reply _ _ _ _ _ _ _ _ _ _ _ := trivial
  takeUp frame s opened winner _ _ a b now ha htaken := by
    have hb : 0 < b.policy.dataFramesRecv := by
      cases htaken with
      | cur => exact ha
      | pend _ _ => exact ha
      | prev _ => exact ha
    rw [Accounts.counted]
    split
    · exact hb
    · exact hb
  cutOver _ _ _ _ _ ha := ha
  sweep _ ha := ha

theorem checkSilentPeer_of_dataFrame {policy : PeerPolicy} (h : 0 < policy.dataFramesRecv)
    (now : ℕ) : policy.checkSilentPeer now = .allow := by
  rw [PeerPolicy.checkSilentPeer]
  split
  · rfl
  · rw [if_neg]
    rintro ⟨-, hdata, -⟩
    rw [silentPeerMinDataRatio] at hdata
    omega

theorem dispatch_datagram {opened : DecryptedFrame} (htype : opened.msgType = msgSessionDatagram)
    {u : Steady H M} (hanswers : Answers C u.handler opened.payload) :
    ∃ data v, (dispatch C opened).run u = .ok (.sendDatagram data) v := by
  have hhandler (u : Steady H M) (hanswers : Answers C u.handler opened.payload) :
      ∃ data v, (dispatchToHandler C opened).run u = .ok (.sendDatagram data) v := by
    obtain ⟨data, handler', hanswer⟩ := hanswers (C.world.clock u.calls)
    have hdispatch : dispatchLinkMessage C.build C.handler
        (C.world.clock u.calls) opened u.handler =
        (.sendDatagram data, handler') := by
      rw [dispatchLinkMessage, htype, if_neg (by decide), if_neg (by decide), if_neg (by decide),
        if_neg (by decide), if_neg (by decide), if_neg (by decide), hanswer]
    refine ⟨data, { u with handler := handler', calls := u.calls + 1 }, ?_⟩
    rw [dispatchToHandler, run_now_bind,
      EStateM.run_get_bind]
    dsimp only
    rw [hdispatch]
    rfl
  rw [dispatch]
  split
  · obtain ⟨data, v, hrun⟩ := hhandler { u with
      calls := u.calls + 1
      mmp := C.mmp.recordRecv opened.counter opened.senderTimestamp opened.frameBytes
        (C.world.clock u.calls) u.mmp } hanswers
    refine ⟨data, v, ?_⟩
    rw [run_now_bind,
      EStateM.run_modify_bind, maybeHandleMmpControl,
      if_neg (by rw [htype]; decide), if_neg (by rw [htype]; decide)]
    exact hrun
  · exact hhandler u hanswers

variable {s : Steady H M}

theorem dataFrame_of_answered {frame payload : Bytes} (h : BringsDatagram C frame s payload)
    (hanswers : Answers C s.handler payload) :
    0 < ((handleFrame C frame).run s).state.accounts.policy.dataFramesRecv := by
  obtain ⟨opened, winner, hopens, htype, rfl⟩ := h
  obtain ⟨t, hopened, hrun⟩ := hopens.opened
  obtain ⟨-, u, -, htake, hhandler, -⟩ := hopened.takenUp fun _ => True
  have hanswers' : Answers C u.handler opened.payload := by
    rw [hhandler]
    exact hanswers
  obtain ⟨data, v, hdispatch⟩ := dispatch_datagram htype hanswers'
  rw [hrun, accept, EStateM.run_bind_ok htake, EStateM.run_bind_ok hdispatch, processFrameAction,
    bind_assoc, EStateM.run_modify_bind, bind_assoc]
  have hkept := (kept_dataFrame (C := C)).toKeptByFrames
  refine hkept.booked ?_ _ (recordDataFrame_pos v.policy)
  refine (booked_sendLinkMessage C trivial data).bind fun _ => ?_
  exact .pure _

theorem heartbeatIfDue_ok (t : ℕ) (s : Steady H M) :
    ∃ due u, (heartbeatIfDue C t).run s = .ok due u := by
  rw [heartbeatIfDue, EStateM.run_get_bind]
  split
  · obtain ⟨sealed, u, hrun, -⟩ := sealAndSend_moves C none [msgHeartbeat] 32 s
    have hsend : ∃ nextHb v, (sendHeartbeat C).run s = .ok nextHb v := by
      rw [sendHeartbeat, EStateM.run_bind_ok (takeCounter_run s), EStateM.run_bind_ok hrun]
      exact ⟨_, _, rfl⟩
    obtain ⟨nextHb, v, hsend⟩ := hsend
    rw [EStateM.run_bind_ok hsend]
    exact ⟨_, _, rfl⟩
  · exact ⟨_, _, rfl⟩

/-- Once a data frame was counted, the timer branch goes on behind its heartbeat. -/
theorem heartbeatOrLeave_of_dataFrame (t : ℕ) (h : 0 < s.policy.dataFramesRecv) :
    ∃ v, (heartbeatOrLeave C t).run s = .ok ⟨⟩ v := by
  have hkept := kept_dataFrame (C := C)
  have hdata := hkept.booked (booked_heartbeatIfDue hkept.ordinary t) s h
  obtain ⟨due, u, hrun⟩ := heartbeatIfDue_ok (C := C) t s
  rw [hrun] at hdata
  rw [heartbeatOrLeave, EStateM.run_bind_ok hrun]
  split
  · rw [run_now_bind, EStateM.run_get_bind, if_neg]
    · exact ⟨_, rfl⟩
    · intro hreject
      have hallow := checkSilentPeer_of_dataFrame hdata (C.world.clock u.calls)
      exact PolicyVerdict.noConfusion (hallow.symm.trans hreject)
  · exact ⟨_, rfl⟩

/-- In a session in which the handler answered a session datagram of the peer with a datagram, the
silent-peer check lets every pass of the timer branch go on behind its heartbeat. -/
theorem silentPeer_spares_answered {s₀ s : Steady H M} (inputs : List Input)
    (hdatagram : ∃ x ∈ handled C inputs s₀, ∃ payload, BringsDatagram C x.1 x.2 payload ∧
      Answers C x.2.handler payload)
    (hrun : (run C inputs).run s₀ = .ok ⟨⟩ s) {tick : Option ℕ} {t : ℕ} {u : Steady H M}
    (hpass : (beforeHeartbeat C).run s = .ok (tick, t) u) :
    ∃ v, (heartbeatOrLeave C t).run u = .ok ⟨⟩ v := by
  obtain ⟨x, hx, payload, hbrings, hanswers⟩ := hdatagram
  have hdata := (kept_dataFrame (C := C)).run_of_mem inputs (fun _ _ => trivial) hx
    (dataFrame_of_answered hbrings hanswers)
  rw [after, hrun] at hdata
  have hdata' := (kept_dataFrame (C := C)).beforeHeartbeat s hdata
  rw [hpass] at hdata'
  exact heartbeatOrLeave_of_dataFrame t hdata'

theorem bringsDatagram_of_openedType {frame : Bytes}
    (hrate : (s.policy.checkFrameRate (C.world.clock s.calls)).1 = .allow)
    (h : openedType C frame s = some msgSessionDatagram) :
    ∃ payload, BringsDatagram C frame s payload := by
  rw [openedType] at h
  split at h
  · rename_i opened winner t hrun
    exact ⟨opened.payload, opened, winner, opensAs_of_openFrame hrate hrun, Option.some.inj h, rfl⟩
  · cases h

end Steady

namespace Scenario

def echoing : Config PUnit MmpPeerState :=
  { measured .xx true false with
    handler := { quiet with onMessage := fun _ _ payload h => (.sendDatagram payload, h) } }

def talking : List Steady.Input :=
  [.recv (peerFrame 0 [msgSessionDatagram, 1, 2, 3]), .recv (peerFrame 1 [msgHeartbeat])]

def atHeartbeat (C : Config PUnit MmpPeerState) :
    EStateM.Result (Fault Ended) (Steady PUnit MmpPeerState) (Option ℕ × ℕ) :=
  (Steady.beforeHeartbeat C).run (Steady.after C (measuredStart C) talking)

def livesOn (C : Config PUnit MmpPeerState) : Bool :=
  match atHeartbeat C with
  | .ok r u => ((Steady.heartbeatOrLeave C r.2).run u).isOk
  | .error _ _ => false

end Scenario

namespace Steady

open Scenario in
theorem silentPeer_spares_answered_echo :
    ∃ r u v, atHeartbeat echoing = .ok r u ∧ (heartbeatOrLeave echoing r.2).run u = .ok ⟨⟩ v := by
  have h : ((run echoing talking).run (measuredStart echoing)).isOk = true ∧
      (atHeartbeat echoing).isOk = true ∧
      ∃ x ∈ handled echoing talking (measuredStart echoing),
        (x.2.policy.checkFrameRate (echoing.world.clock x.2.calls)).1 = .allow ∧
          openedType echoing x.1 x.2 = some msgSessionDatagram := by
    decide +kernel
  obtain ⟨hrun, hpass, x, hx, hrate, htype⟩ := h
  obtain ⟨payload, hbrings⟩ := bringsDatagram_of_openedType hrate htype
  obtain ⟨⟨tick, t⟩, u, hpass⟩ := EStateM.Result.exists_of_isOk hpass
  have hanswers : Answers echoing x.2.handler payload := fun _ => ⟨payload, _, rfl⟩
  obtain ⟨v, hv⟩ := silentPeer_spares_answered talking ⟨x, hx, payload, hbrings, hanswers⟩
    (EStateM.Result.eq_ok_of_isOk hrun) hpass
  exact ⟨(tick, t), u, v, hpass, hv⟩

open Scenario in
/-- The handler takes the datagram without an answer.  The session is ended at the first heartbeat
that is due behind the dead-link timeout. -/
theorem silentPeer_ends_unanswered :
    (∃ x ∈ handled (measured .xx true false) talking (measuredStart (measured .xx true false)),
      ∃ payload, BringsDatagram (measured .xx true false) x.1 x.2 payload) ∧
    ((run (measured .xx true false) talking).run
      (measuredStart (measured .xx true false))).isOk = true ∧
    ∃ r u, atHeartbeat (measured .xx true false) = .ok r u ∧
      ((heartbeatOrLeave (measured .xx true false) r.2).run u).isOk = false := by
  have h : (∃ x ∈ handled (measured .xx true false) talking
        (measuredStart (measured .xx true false)),
      (x.2.policy.checkFrameRate ((measured .xx true false).world.clock x.2.calls)).1 = .allow ∧
        openedType (measured .xx true false) x.1 x.2 = some msgSessionDatagram) ∧
      ((run (measured .xx true false) talking).run
        (measuredStart (measured .xx true false))).isOk = true ∧
      (atHeartbeat (measured .xx true false)).isOk = true ∧
      livesOn (measured .xx true false) = false := by
    decide +kernel
  obtain ⟨⟨x, hx, hrate, htype⟩, hrun, hpass, hlives⟩ := h
  refine ⟨⟨x, hx, bringsDatagram_of_openedType hrate htype⟩, hrun, ?_⟩
  obtain ⟨r, u, hpass⟩ := EStateM.Result.exists_of_isOk hpass
  rw [livesOn, hpass] at hlives
  exact ⟨r, u, hpass, hlives⟩

end Steady
end Node
end Microfips

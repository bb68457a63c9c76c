import Microfips.Data.Simulation
import Microfips.Session.Agreement

/-!
# How a handler opens its session

A dual handler arms its timer when the link is up and sends a setup when the timer is due.  The
initiator it does that with is built once, by `new_dual`, and dropped when the link goes down or its
handshake fails, so only the first link session of a handler gets a session of its own.
-/

namespace Microfips
namespace Session
namespace FspDualHandler

open Noise Wire Node EStateM

variable {A : Type}

def pollAt (self : FspDualHandler A) : Option ℕ :=
  self.fspTimer

/-- What a handler opens its session with: its secret, its target, its initiator, the timer and the
setup that it repeats. -/
structure Outgoing where
  nsec : Block 32
  targetAddr : Option (Block 16)
  initiator : Option FspInitiatorSession
  fspTimer : Option ℕ
  lastSetup : Option Bytes

def outgoing (self : FspDualHandler A) : Outgoing where
  nsec := self.nsec
  targetAddr := self.targetAddr
  initiator := self.initiator
  fspTimer := self.fspTimer
  lastSetup := self.lastSetup

/-- The run of `m` from `h` leaves the outgoing side alone. -/
abbrev LeavesOutgoing {α : Type} (h : FspDualHandler A) (m : Action A α) : Prop :=
  LeavesAt outgoing h m

variable {S : Suite} {build : Build} {h : FspDualHandler A}

theorem leavesOutgoing_onSession {α : Type} (m : EStateM (Fault FspSessionError) FspSession α) :
    LeavesOutgoing h (onSession m) := by
  rw [LeavesOutgoing, LeavesAt, onSession_run]
  split <;> rfl

theorem leavesOutgoing_handleSetup (fspData : Bytes) (ackLen : ℕ) :
    LeavesOutgoing h (handleSetup S build fspData ackLen) :=
  .get_bind (leavesOutgoing_onSession _)

theorem leavesOutgoing_handleResponderSetup (replyBody fspData : Bytes) (respLen : ℕ) :
    LeavesOutgoing h (handleResponderSetup S build replyBody fspData respLen) := by
  rw [handleResponderSetup]
  split
  · exact .pure _ _
  · refine (leavesOutgoing_handleSetup _ _).bind fun r t _ => ?_
    split
    · exact .pure _ _
    · refine .modify_bind rfl ((leavesOutgoing_handleSetup _ _).bind fun r u _ => ?_)
      split <;> exact .pure _ _
    · exact .pure _ _

theorem leavesOutgoing_handleResponderMsg3 (fspData : Bytes) :
    LeavesOutgoing h (handleResponderMsg3 S build fspData) := by
  refine .get_bind ((leavesOutgoing_onSession _).bind fun r t _ => ?_)
  split
  · exact .pure _ _
  · refine .get_bind ?_
    split
    · exact .modify_bind rfl (.pure _ _)
    · exact .pure _ _

/-- The outgoing side of a handler, and its responder session up to the counter. -/
def settled (self : FspDualHandler A) : Outgoing × FspSession :=
  (self.outgoing, { self.fspSession with sendCounter := 0 })

/-- The run of `m` from `h` leaves the outgoing side and the responder session alone. -/
abbrev LeavesSettled {α : Type} (h : FspDualHandler A) (m : Action A α) : Prop :=
  LeavesAt settled h m

theorem leavesSettled_sealReply (appBuf : ℕ) (replyBody : Bytes) (kSend : Block 32)
    (msgType : UInt8) (payload : Bytes) (respLen : ℕ) :
    LeavesSettled h (sealReply S appBuf replyBody kSend msgType payload respLen) := by
  rw [sealReply]
  split
  · exact .pure _ _
  · refine .get_bind (.set_bind rfl (.modify_bind rfl ?_))
    dsimp only
    split
    · exact .pure _ _
    · split
      · exact .pure _ _
      · exact .modify_bind rfl (.pure _ _)

theorem leavesSettled_handleResponderData (handler : FspAppHandler A) (appBuf : ℕ)
    (srcAddr : Block 16) (replyBody fspData : Bytes) (respLen : ℕ) :
    LeavesSettled h
      (handleResponderData S handler appBuf srcAddr replyBody fspData respLen) := by
  refine .get_bind ?_
  split
  · exact .pure _ _
  · split
    · refine .modify_bind rfl ?_
      split
      · exact .pure _ _
      · split
        · exact .pure _ _
        · split
          · exact .pure _ _
          · split
            · exact .pure _ _
            · refine .modify_bind rfl (.bind ?_ fun r t _ => ?_)
              · obtain ⟨result, app, hrun⟩ := deliver_run handler srcAddr _ _ _ _
                rw [LeavesAt, hrun]
                rfl
              · split
                · exact .pure _ _
                · exact .pure _ _
                · split
                  · exact .throw _ _
                  · exact leavesSettled_sealReply _ _ _ _ _ _
    · exact .pure _ _

theorem leavesOutgoing_handleResponder (handler : FspAppHandler A) (appBuf : ℕ) (msgType : UInt8)
    (payload : Bytes) (respLen : ℕ) :
    LeavesOutgoing h (handleResponder S build handler appBuf msgType payload respLen) := by
  rw [handleResponder]
  split
  · exact .pure _ _
  · split
    · exact .pure _ _
    · dsimp only
      split
      · exact leavesOutgoing_handleResponderSetup _ _ _
      · split
        · exact leavesOutgoing_handleResponderMsg3 _
        · split
          · exact (leavesSettled_handleResponderData _ _ _ _ _ _).comp Prod.fst
          · exact .pure _ _

/-- The handler has sent no setup: it has no initiator or an unused one. -/
def Idle (h : FspDualHandler A) : Prop :=
  ∀ fsp, h.initiator = some fsp → fsp.state = .idle

theorem handleInitiator_idle (hidle : h.Idle) (now : ℕ) (msgType : UInt8) (payload : Bytes)
    (respLen : ℕ) :
    (handleInitiator S now msgType payload respLen).run h = .ok .none h := by
  simp only [handleInitiator, EStateM.run_bind, EStateM.run_get]
  split
  · rfl
  · split
    · rename_i fsp _ _ hfsp
      split
      · rfl
      · split
        · rfl
        · rw [hidle fsp hfsp]
          rfl
    · rfl


theorem leavesOutgoing_onMessage (hidle : h.Idle) (handler : FspAppHandler A) (appBuf now : ℕ)
    (msgType : UInt8) (payload : Bytes) (respLen : ℕ) :
    LeavesOutgoing h (onMessage S build handler appBuf now msgType payload respLen) := by
  have hresponder : LeavesOutgoing h
      (handleResponder S build handler appBuf msgType payload respLen) :=
    leavesOutgoing_handleResponder handler appBuf msgType payload respLen
  refine hresponder.bind fun r t hrun => ?_
  split
  · have hinit : t.initiator = h.initiator :=
      congrArg Outgoing.initiator (hresponder.view_eq hrun)
    have hidle : t.Idle := fun fsp hfsp => hidle fsp (hinit ▸ hfsp)
    rw [LeavesAt, handleInitiator_idle hidle]
    rfl
  · exact .pure _ _

section Opening

variable {si ei sr er : Keypair S} {rs : HeldKey sr} {epochI epochR : Block 8}
  (x : Exchange S build si ei sr er rs epochI epochR)

structure Prepared (targetAddr : Block 16) (h : FspDualHandler A) : Prop where
  nsec : h.nsec = si.secret
  targetAddr : h.targetAddr = some targetAddr
  initiator : h.initiator = some (initiatorSession si rs .idle x.fresh none)

variable {x} in
theorem Prepared.idle {targetAddr : Block 16} (hprep : Prepared x targetAddr h) : h.Idle := by
  intro fsp hfsp
  rw [hprep.initiator] at hfsp
  exact Option.some.inj hfsp ▸ rfl

theorem myAddr_eq (hnsec : h.nsec = si.secret) : h.myAddr S = some (nodeAddr S (xOnly si.pub)) := by
  rw [myAddr, hnsec, ecdhPubkey_eq_ok si.publicKey_secret]

def setupDatagram (si ei : Keypair S) (targetAddr : Block 16) : Bytes :=
  buildSessionDatagramBody (nodeAddr S (xOnly si.pub)) targetAddr ++
    setupOf (nodeAddr S (xOnly si.pub)) targetAddr ei.pub

theorem setupDatagram_length (targetAddr : Block 16) :
    (setupDatagram si ei targetAddr).length = 111 := by
  simp [setupDatagram, buildSessionDatagramBody, setupOf_length]

variable {x} {targetAddr : Block 16}

/-- The first tick of the timer sends the setup and keeps it for the next ones. -/
theorem onTick_prepared (hprep : Prepared x targetAddr h) (now : ℕ) {respLen : ℕ}
    (hresp : 111 ≤ respLen) :
    (onTick S now respLen).run h = .ok (.sendDatagram (setupDatagram si ei targetAddr))
      { h with
        initiator := some (initiatorSession si rs .awaitingAck x.opened none)
        lastSetup := some (setupDatagram si ei targetAddr)
        fspTimer := some (now + fromSecs 8) } := by
  have hsetup := x.buildSetup_run
    (buildSessionSetup_eq_ok (nodeAddr S (xOnly si.pub)) targetAddr ei.pub)
  have hrespond {t : FspDualHandler A} :
      (respond respLen (buildSessionDatagramBody (nodeAddr S (xOnly si.pub)) targetAddr ++
        setupOf (nodeAddr S (xOnly si.pub)) targetAddr ei.pub) : Action A _).run t =
          .ok (.sendDatagram (setupDatagram si ei targetAddr)) t := by
    have hlen := @setupDatagram_length S si ei targetAddr
    rw [setupDatagram] at hlen
    rw [respond, if_neg (by omega)]
    rfl
  have hinit : (onInitiator (initiatorSession si rs .idle x.fresh none)
      (FspInitiatorSession.buildSetup S (nodeAddr S (xOnly si.pub)) targetAddr 512)).run h =
        .ok (.ok (setupOf (nodeAddr S (xOnly si.pub)) targetAddr ei.pub))
          { h with initiator := some (initiatorSession si rs .awaitingAck x.opened none) } := by
    rw [EStateM.run, onInitiator, hsetup]
  have hstate : (initiatorSession si rs .idle x.fresh none).state = .idle := rfl
  simp only [onTick, EStateM.run_bind, EStateM.run_get, hprep.targetAddr, myAddr_eq hprep.nsec,
    hprep.initiator, hstate, hinit, hrespond]
  rfl

theorem Prepared.onEventDefault (hprep : Prepared x targetAddr h) (now : ℕ) {event : NodeEvent}
    (hevent : event ≠ .disconnected ∧ event ≠ .error) :
    ∃ t, (onEventDefault now event).run h = .ok ⟨⟩ t ∧ Prepared x targetAddr t ∧
      (event = .handshakeOk → t.fspTimer = some (now + fromSecs 5)) := by
  cases event with
  | handshakeOk =>
      refine ⟨_, rfl, ⟨hprep.nsec, hprep.targetAddr, hprep.initiator⟩, fun _ => ?_⟩
      simp [hprep.initiator]
  | disconnected => exact absurd rfl hevent.1
  | error => exact absurd rfl hevent.2
  | _ => exact ⟨h, rfl, hprep, by simp⟩

/-- The setup is due five seconds after the link is up, whatever comes before. -/
def Due (x : Exchange S build si ei sr er rs epochI epochR) (targetAddr : Block 16) (now : ℕ)
    (h : FspDualHandler A) : Prop :=
  Prepared x targetAddr h ∧ h.fspTimer = some (now + fromSecs 5)

theorem Due.onMessage {now : ℕ} (hdue : Due x targetAddr now h) {handler : FspAppHandler A}
    {appBuf now' : ℕ} {msgType : UInt8} {payload : Bytes} {respLen : ℕ} {r : HandleResult}
    {t : FspDualHandler A}
    (hrun : (onMessage S build handler appBuf now' msgType payload respLen).run h = .ok r t) :
    Due x targetAddr now t := by
  obtain ⟨hprep, htimer⟩ := hdue
  have hout : t.outgoing = h.outgoing :=
    (leavesOutgoing_onMessage hprep.idle handler appBuf now' msgType payload respLen).view_eq hrun
  refine ⟨⟨?_, ?_, ?_⟩, ?_⟩
  · exact (congrArg Outgoing.nsec hout).trans hprep.nsec
  · exact (congrArg Outgoing.targetAddr hout).trans hprep.targetAddr
  · exact (congrArg Outgoing.initiator hout).trans hprep.initiator
  · exact (congrArg Outgoing.fspTimer hout).trans htimer

/-- A message in a link session: its time, type and payload, and the room for the reply. -/
abbrev Message : Type := ℕ × UInt8 × Bytes × ℕ

def messageInputs (messages : List Message) : List Input :=
  messages.map fun m => .message m.1 m.2.1 m.2.2.1 m.2.2.2

def eventInputs (events : List (ℕ × NodeEvent)) : List Input :=
  events.map fun e => .event e.1 e.2

theorem Prepared.run_eventInputs (handler : FspAppHandler A) (appBuf : ℕ) (rest : List Input)
    {events : List (ℕ × NodeEvent)}
    (hevents : ∀ e ∈ events, e.2 ≠ .disconnected ∧ e.2 ≠ .error)
    (hprep : Prepared x targetAddr h) :
    ∃ t, Prepared x targetAddr t ∧
      (run S build handler appBuf (eventInputs events ++ rest)).run h =
        (run S build handler appBuf rest).run t := by
  induction events generalizing h with
  | nil => exact ⟨h, hprep, rfl⟩
  | cons e events ih =>
      obtain ⟨t, hrun, ht, -⟩ := hprep.onEventDefault e.1 (hevents e List.mem_cons_self)
      obtain ⟨u, hu, hrest⟩ := ih (fun e he => hevents e (List.mem_cons_of_mem _ he)) ht
      have hstep : (step S build handler appBuf (.event e.1 e.2)).run h = .ok .none t := by
        rw [step, run_bind_ok hrun]
        rfl
      refine ⟨u, hu, ?_⟩
      rw [← hrest]
      exact run_bind_ok hstep

theorem Due.run_messageInputs {handler : FspAppHandler A} {appBuf now : ℕ}
    {messages : List Message} (hdue : Due x targetAddr now h) {t : FspDualHandler A}
    (hrun : (run S build handler appBuf (messageInputs messages)).run h = .ok ⟨⟩ t) :
    Due x targetAddr now t := by
  induction messages generalizing h with
  | nil =>
      cases hrun
      exact hdue
  | cons m messages ih =>
      cases hstep : (FspDualHandler.onMessage S build handler appBuf m.1 m.2.1 m.2.2.1
        m.2.2.2).run h with
      | ok r u =>
          have hrest : (run S build handler appBuf (messageInputs (m :: messages))).run h =
              (run S build handler appBuf (messageInputs messages)).run u := run_bind_ok hstep
          exact ih (hdue.onMessage hstep) (hrest.symm.trans hrun)
      | error e u =>
          have hfail : (run S build handler appBuf (messageInputs (m :: messages))).run h =
              .error e u := run_bind_error hstep
          cases hfail.symm.trans hrun

end Opening

namespace Scenario

def dual : FspDualHandler PUnit :=
  newDual Additive.suite .ik (Additive.keypair 3).secret (Additive.keypair 4).secret
    (Additive.keypair 5).secret (Additive.oddKey 1).pub (Block.replicate 16 1)
    (Block.replicate 8 6) ⟨⟩

def dualAfter (events : List (ℕ × NodeEvent)) : FspDualHandler PUnit :=
  ((run Additive.suite .ik silent 512 (eventInputs events)).run dual).state

end Scenario

end FspDualHandler
end Session
end Microfips

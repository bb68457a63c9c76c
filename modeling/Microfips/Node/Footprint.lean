import Microfips.Data.Simulation
import Microfips.Node.Steady

/-!
# What the handling of frames leaves alone

The receive buffer and the deadlines of `steady` are written by the loop itself.  Nothing that
handles a frame, sends one or works on the epochs touches them; the heartbeat and the reports
move the deadlines and leave the buffer.
-/

namespace Microfips
namespace Node
namespace Steady

open Noise Wire EStateM

variable {H M : Type}

def buffer (s : Steady H M) : Bytes × ℕ :=
  (s.rbuf, s.rpos)

def deadlines (s : Steady H M) : ℕ × ℕ × ℕ :=
  (s.nextHb, s.nextSr, s.nextRr)

def standing (s : Steady H M) : (Bytes × ℕ) × ℕ × ℕ × ℕ :=
  (s.buffer, s.deadlines)

/-- Beside the standing variables: they are the same, and calls to the world are only added. -/
structure Beside (s t : Steady H M) : Prop where
  standing_eq : t.standing = s.standing
  calls_le : s.calls ≤ t.calls

namespace Beside

variable {r s t : Steady H M}

theorem refl (s : Steady H M) : Beside s s :=
  ⟨rfl, Nat.le_refl _⟩

theorem trans (h : Beside r s) (h' : Beside s t) : Beside r t :=
  ⟨h'.standing_eq.trans h.standing_eq, h.calls_le.trans h'.calls_le⟩

theorem buffer_eq (h : Beside s t) : t.buffer = s.buffer :=
  congrArg Prod.fst h.standing_eq

theorem deadlines_eq (h : Beside s t) : t.deadlines = s.deadlines :=
  congrArg Prod.snd h.standing_eq

end Beside

def Unobtrusive {α : Type} (m : Action H M α) : Prop :=
  Keeps Beside m

namespace Unobtrusive

variable {α β : Type} {m : Action H M α}

theorem pure (a : α) : Unobtrusive (pure a : Action H M α) :=
  Keeps.pure Beside.refl a

theorem throw (e : Fault Ended) : Unobtrusive (throw e : Action H M α) :=
  Keeps.throw_error Beside.refl e

theorem modify {g : Steady H M → Steady H M} (h : ∀ s, Beside s (g s)) :
    Unobtrusive (modify g : Action H M PUnit) :=
  Keeps.modify h

theorem bind {f : α → Action H M β} (hm : Unobtrusive m) (hf : ∀ a, Unobtrusive (f a)) :
    Unobtrusive (m >>= f) :=
  Keeps.bind (fun h => h) (fun h h' => h.trans h') hm hf

theorem get_bind {f : Steady H M → Action H M α} (hf : ∀ s, Beside s ((f s).run s).state) :
    Unobtrusive (get >>= f) :=
  Keeps.get_bind hf

theorem set_bind {s t : Steady H M} {f : PUnit → Action H M α} (h : Beside s t)
    (hf : Beside t ((f ⟨⟩).run t).state) : Beside s ((set t >>= f).run s).state :=
  h.trans hf

theorem beside {s t : Steady H M} {a : α} (hm : Unobtrusive m) (hrun : m.run s = .ok a t) :
    Beside s t := by
  have h := hm s
  rwa [hrun] at h

theorem leaves_buffer (h : Unobtrusive m) : Leaves buffer m :=
  fun s => (h s).buffer_eq

end Unobtrusive

theorem unobtrusive_ask {α : Type} (answer : ℕ → α) :
    Unobtrusive (ask answer : Action H M α) :=
  fun _ => ⟨rfl, Nat.le_succ _⟩

theorem unobtrusive_emit (e : KeyEvent) : Unobtrusive (emit e : Action H M PUnit) :=
  fun _ => ⟨rfl, Nat.le_refl _⟩

theorem unobtrusive_note (e : FrameEvent) : Unobtrusive (note e : Action H M PUnit) :=
  fun _ => ⟨rfl, Nat.le_refl _⟩

theorem unobtrusive_attempt {σ α : Type} (m : EStateM (Fault NoiseError) σ α) (object : σ) :
    Unobtrusive (attempt m object : Action H M (Option (α × σ))) := by
  rw [attempt]
  split
  · exact .pure _
  · exact .pure _
  · exact .throw _

theorem unobtrusive_takeCounter : Unobtrusive (takeCounter : Action H M UInt64) :=
  fun _ => ⟨rfl, Nat.le_refl _⟩

variable (C : Config H M)

section Sending

theorem unobtrusive_sendParts (payload : Bytes) : Unobtrusive (sendParts C payload) := by
  rw [sendParts]
  split
  · exact unobtrusive_ask _
  · refine (unobtrusive_ask _).bind fun ok => ?_
    split
    · exact unobtrusive_ask _
    · exact .pure _

theorem unobtrusive_sendFrame (payload : Bytes) : Unobtrusive (sendFrame C payload) := by
  refine (unobtrusive_sendParts C payload).bind fun ok => ?_
  split
  · exact (unobtrusive_note _).bind fun _ => .pure _
  · exact .pure _

theorem unobtrusive_onEvent (event : NodeEvent) : Unobtrusive (onEvent C event) :=
  (unobtrusive_ask _).bind fun _ => .modify fun _ => ⟨rfl, Nat.le_refl _⟩

theorem unobtrusive_refresh : Unobtrusive (refresh C) :=
  (unobtrusive_ask _).bind fun _ => .modify fun _ => ⟨rfl, Nat.le_refl _⟩

theorem unobtrusive_recordSent (c : UInt64) (ts : UInt32) (bytes : ℕ) :
    Unobtrusive (recordSent C c ts bytes) := by
  rw [recordSent]
  split
  · exact .modify fun _ => ⟨rfl, Nat.le_refl _⟩
  · exact .pure _

theorem unobtrusive_sealAndSend (c : UInt64) (msg : Bytes) (innerLen : ℕ) :
    Unobtrusive (sealAndSend C c msg innerLen) := by
  refine (unobtrusive_ask _).bind fun t => ?_
  split
  · exact .pure _
  · refine .get_bind fun s => ?_
    split
    · exact Unobtrusive.pure _ s
    · refine Unobtrusive.bind (unobtrusive_emit _) (fun _ => ?_) s
      refine (unobtrusive_sendFrame C _).bind fun _ => ?_
      exact (unobtrusive_recordSent C _ _ _).bind fun _ => .pure _

theorem unobtrusive_sendLinkMessage (msgType : UInt8) (body : Bytes) :
    Unobtrusive (sendLinkMessage C msgType body) := by
  refine unobtrusive_takeCounter.bind fun c => ?_
  split
  · exact .throw _
  · refine (unobtrusive_sealAndSend C c _ _).bind fun ok => ?_
    split
    · exact .modify fun _ => ⟨rfl, Nat.le_refl _⟩
    · exact .pure _

theorem unobtrusive_sendHeartbeat : Unobtrusive (sendHeartbeat C) := by
  refine unobtrusive_takeCounter.bind fun c => ?_
  refine (unobtrusive_sealAndSend C c _ _).bind fun _ => ?_
  exact (unobtrusive_ask _).bind fun _ => .pure _

theorem unobtrusive_sendDisconnect (reason : UInt8) : Unobtrusive (sendDisconnect C reason) := by
  refine unobtrusive_takeCounter.bind fun c => ?_
  exact (unobtrusive_sealAndSend C c _ _).bind fun _ => .pure _

theorem unobtrusive_sendReport (msgType : UInt8) (report : Option Bytes) :
    Unobtrusive (sendReport C msgType report) := by
  cases report with
  | none => exact .pure _
  | some body => exact unobtrusive_sendLinkMessage C msgType body

end Sending

section Rekeying

theorem unobtrusive_sendRekeyMsg1 (n1 : Bytes) (hs : LinkInitiator) :
    Unobtrusive (sendRekeyMsg1 C n1 hs) := by
  refine (unobtrusive_ask _).bind fun index => ?_
  split
  · exact .pure _
  · refine (unobtrusive_sendFrame C _).bind fun sent => ?_
    split
    · exact (unobtrusive_ask _).bind fun _ => .pure _
    · exact .pure _

theorem unobtrusive_initiateRekey : Unobtrusive (initiateRekey C) := by
  rw [initiateRekey]
  split
  · split
    · exact .pure _
    · refine (unobtrusive_ask _).bind fun eph => ?_
      split
      · exact .pure _
      · refine (unobtrusive_attempt _ _).bind fun r => ?_
        split
        · exact .pure _
        · exact unobtrusive_sendRekeyMsg1 C _ _
  · refine (unobtrusive_ask _).bind fun eph => ?_
    split
    · exact .pure _
    · refine (unobtrusive_attempt _ _).bind fun r => ?_
      split
      · exact .pure _
      · exact unobtrusive_sendRekeyMsg1 C _ _

theorem unobtrusive_answerRekeyMsg1Ik (senderIdx : SessionIndex) (np : Bytes) (curKBit : Bool) :
    Unobtrusive (answerRekeyMsg1Ik C senderIdx np curKBit) := by
  rw [answerRekeyMsg1Ik]
  split
  · exact .pure _
  · split
    · exact .pure _
    · refine (unobtrusive_attempt _ _).bind fun r => ?_
      split
      · exact .pure _
      · split
        · refine (unobtrusive_ask _).bind fun eph => ?_
          refine (unobtrusive_attempt _ _).bind fun r => ?_
          split
          · exact .pure _
          · refine (unobtrusive_ask _).bind fun index => ?_
            split <;> exact .pure _
        · exact .pure _

theorem unobtrusive_beginRekeyXx (senderIdx : SessionIndex) (np : Bytes) :
    Unobtrusive (beginRekeyXx C senderIdx np) := by
  rw [beginRekeyXx]
  split
  · exact .pure _
  · split
    · exact .pure _
    · refine (unobtrusive_attempt _ _).bind fun r => ?_
      split
      · exact .pure _
      · refine (unobtrusive_ask _).bind fun eph => ?_
        refine (unobtrusive_attempt _ _).bind fun r => ?_
        split
        · exact .pure _
        · refine (unobtrusive_ask _).bind fun index => ?_
          split <;> exact .pure _

theorem unobtrusive_arm (slot : EpochSlot) : Unobtrusive (arm slot : Action H M PUnit) :=
  fun _ => ⟨rfl, Nat.le_refl _⟩

theorem unobtrusive_remember (msg1Wire msg2 : Bytes) :
    Unobtrusive (remember msg1Wire msg2 : Action H M PUnit) :=
  fun _ => ⟨rfl, Nat.le_refl _⟩

theorem unobtrusive_answerMsg1 (senderIdx : SessionIndex) (np msg1Wire : Bytes) :
    Unobtrusive (answerMsg1 C senderIdx np msg1Wire) := by
  rw [answerMsg1]
  split
  · refine .get_bind fun s => ?_
    refine Unobtrusive.bind (unobtrusive_answerRekeyMsg1Ik C _ _ _) (fun r => ?_) s
    split
    · exact .pure _
    · refine (unobtrusive_sendFrame C _).bind fun _ => ?_
      refine (unobtrusive_arm _).bind fun _ => ?_
      exact (unobtrusive_remember _ _).bind fun _ => .pure _
  · refine (unobtrusive_beginRekeyXx C _ _).bind fun r => ?_
    split
    · exact .pure _
    · refine (unobtrusive_sendFrame C _).bind fun _ => ?_
      refine Unobtrusive.bind (.modify fun _ => ⟨rfl, Nat.le_refl _⟩) fun _ => ?_
      exact (unobtrusive_remember _ _).bind fun _ => .pure _

theorem unobtrusive_freshOk : Unobtrusive (freshOk C) := by
  refine .get_bind fun s => ?_
  split
  · exact Unobtrusive.pure _ s
  · refine Unobtrusive.bind (unobtrusive_ask _) (fun t => ?_) s
    split
    · exact .throw _
    · exact .pure _

theorem unobtrusive_resendMsg2 : Unobtrusive (resendMsg2 C) := by
  refine .get_bind fun s => ?_
  split
  · exact Unobtrusive.pure _ s
  · exact Unobtrusive.bind (unobtrusive_sendFrame C _) (fun _ => .pure _) s

theorem unobtrusive_notePeerRekey : Unobtrusive (notePeerRekey C) :=
  (unobtrusive_ask _).bind fun _ =>
    Unobtrusive.bind (.modify fun _ => ⟨rfl, Nat.le_refl _⟩) fun _ => unobtrusive_refresh C

theorem unobtrusive_handleMsg1 (frame : Bytes) (senderIdx : SessionIndex) (noisePayload : Bytes) :
    Unobtrusive (handleMsg1 C frame senderIdx noisePayload) := by
  refine (unobtrusive_note _).bind fun _ => ?_
  refine .get_bind fun s => ?_
  split
  · exact Unobtrusive.bind (unobtrusive_resendMsg2 C) (fun _ => unobtrusive_notePeerRekey C) s
  · refine Unobtrusive.bind (unobtrusive_freshOk C) (fun fresh => ?_) s
    split
    · refine (unobtrusive_ask _).bind fun t => ?_
      refine Unobtrusive.bind (.modify fun _ => ⟨rfl, Nat.le_refl _⟩) fun _ => ?_
      refine (unobtrusive_answerMsg1 C _ _ _).bind fun answered => ?_
      split
      · exact unobtrusive_notePeerRekey C
      · exact .pure _
    · exact .pure _

theorem unobtrusive_handleMsg3 (frame noisePayload : Bytes) (hs : RekeyHs) :
    Unobtrusive (handleMsg3 C frame noisePayload hs) := by
  refine Unobtrusive.bind (.modify fun _ => ⟨rfl, Nat.le_refl _⟩) fun _ => ?_
  refine (unobtrusive_note _).bind fun _ => ?_
  refine (unobtrusive_attempt _ _).bind fun r => ?_
  split
  · exact unobtrusive_refresh C
  · split
    · exact .get_bind fun s =>
        Unobtrusive.bind (unobtrusive_arm _) (fun _ => unobtrusive_refresh C) s
    · exact unobtrusive_refresh C

theorem unobtrusive_completeXx (ri : RekeyInit) (hs : NoiseXxInitiator) (senderIdx : SessionIndex)
    (np : Bytes) : Unobtrusive (completeXx C ri hs senderIdx np) := by
  refine (unobtrusive_attempt _ _).bind fun r => ?_
  split
  · exact .pure _
  · split
    · split
      · exact .pure _
      · refine (unobtrusive_attempt _ _).bind fun r => ?_
        split
        · exact .pure _
        · split
          · exact .pure _
          · refine (unobtrusive_sendFrame C _).bind fun sent => ?_
            split <;> exact .pure _
    · exact .pure _

theorem unobtrusive_complete (ri : RekeyInit) (senderIdx : SessionIndex) (np : Bytes) :
    Unobtrusive (complete C ri senderIdx np) := by
  rw [complete]
  split
  · refine Unobtrusive.bind ?_ fun _ => .pure _
    refine (unobtrusive_attempt _ _).bind fun r => ?_
    split <;> exact .pure _
  · exact unobtrusive_completeXx C ri _ senderIdx np

theorem unobtrusive_handleMsg2 (frame : Bytes) (senderIdx receiverIdx : SessionIndex)
    (noisePayload : Bytes) (ri : RekeyInit) :
    Unobtrusive (handleMsg2 C frame senderIdx receiverIdx noisePayload ri) := by
  rw [handleMsg2]
  split
  · exact (unobtrusive_note _).bind fun _ => unobtrusive_refresh C
  · refine Unobtrusive.bind (.modify fun _ => ⟨rfl, Nat.le_refl _⟩) fun _ => ?_
    refine (unobtrusive_note _).bind fun _ => ?_
    refine (unobtrusive_complete C _ _ _).bind fun r => ?_
    split
    · exact .pure _
    · exact unobtrusive_refresh C
    · refine .get_bind fun s => ?_
      refine Unobtrusive.bind (unobtrusive_arm _) (fun _ => ?_) s
      exact Unobtrusive.bind (.modify fun _ => ⟨rfl, Nat.le_refl _⟩) fun _ => unobtrusive_refresh C

end Rekeying

section Frames

theorem unobtrusive_tryCur (frame : Bytes) : Unobtrusive (tryCur C frame) := by
  refine .get_bind fun s => ?_
  split
  · exact Unobtrusive.throw _ s
  · exact ⟨rfl, Nat.le_refl _⟩

theorem unobtrusive_tryPend (frame : Bytes) : Unobtrusive (tryPend C frame) := by
  refine .get_bind fun s => ?_
  split
  · exact Unobtrusive.pure _ s
  · split
    · exact Unobtrusive.throw _ s
    · exact ⟨rfl, Nat.le_refl _⟩

theorem unobtrusive_tryPrevLast (frame : Bytes) : Unobtrusive (tryPrevLast C frame) := by
  refine Unobtrusive.bind (.get_bind fun s => ?_) fun r => ?_
  · split
    · exact Unobtrusive.pure _ s
    · split
      · exact Unobtrusive.throw _ s
      · exact ⟨rfl, Nat.le_refl _⟩
  · split <;> exact .pure _

theorem unobtrusive_openFrame (frame : Bytes) : Unobtrusive (openFrame C frame) := by
  refine .get_bind fun s => ?_
  split
  · refine Unobtrusive.bind (unobtrusive_tryPend C frame) (fun r => ?_) s
    split
    · exact .pure _
    · refine (unobtrusive_tryCur C frame).bind fun r => ?_
      split
      · exact .pure _
      · exact unobtrusive_tryPrevLast C frame
  · refine Unobtrusive.bind (unobtrusive_tryCur C frame) (fun r => ?_) s
    split
    · exact .pure _
    · refine (unobtrusive_tryPend C frame).bind fun r => ?_
      split
      · exact .pure _
      · exact unobtrusive_tryPrevLast C frame

theorem unobtrusive_promote (cause : Cutover) :
    Unobtrusive (promote cause : Action H M PUnit) := by
  refine .get_bind fun s => ?_
  split
  · exact Unobtrusive.pure _ s
  · exact ⟨rfl, Nat.le_refl _⟩

theorem unobtrusive_afterPromotion (drainBase started : ℕ) :
    Unobtrusive (afterPromotion C drainBase started) := by
  refine Unobtrusive.bind (.modify fun _ => ⟨rfl, Nat.le_refl _⟩) fun _ => ?_
  refine Unobtrusive.bind ?_ fun _ => (unobtrusive_ask _).bind fun _ => .modify fun _ =>
    ⟨rfl, Nat.le_refl _⟩
  rw [resetMmp]
  split
  · exact (unobtrusive_ask _).bind fun _ => .modify fun _ => ⟨rfl, Nat.le_refl _⟩
  · exact .pure _

theorem unobtrusive_processFrameAction (action : FrameAction) :
    Unobtrusive (processFrameAction C action) := by
  cases action with
  | «continue» => exact .pure _
  | heartbeatRecv =>
      refine Unobtrusive.bind (.modify fun _ => ⟨rfl, Nat.le_refl _⟩) fun _ => ?_
      exact (unobtrusive_onEvent C _).bind fun _ => .pure _
  | peerDc reason => exact .pure _
  | selfDc => exact (unobtrusive_sendDisconnect C _).bind fun _ => .pure _
  | sendDatagram data =>
      refine Unobtrusive.bind (.modify fun _ => ⟨rfl, Nat.le_refl _⟩) fun _ => ?_
      exact (unobtrusive_sendLinkMessage C _ _).bind fun _ => .pure _
  | sendLinkMessage msgType body =>
      refine Unobtrusive.bind (.modify fun _ => ⟨rfl, Nat.le_refl _⟩) fun _ => ?_
      exact (unobtrusive_sendLinkMessage C _ _).bind fun _ => .pure _

theorem unobtrusive_dispatchToHandler (frame : DecryptedFrame) :
    Unobtrusive (dispatchToHandler C frame) :=
  (unobtrusive_ask _).bind fun _ => .get_bind fun _ => ⟨rfl, Nat.le_refl _⟩

theorem unobtrusive_maybeHandleMmpControl (frame : DecryptedFrame) :
    Unobtrusive (maybeHandleMmpControl C frame) := by
  rw [maybeHandleMmpControl]
  split
  · refine (unobtrusive_ask _).bind fun t => ?_
    refine .get_bind fun s => Unobtrusive.set_bind ⟨rfl, Nat.le_refl _⟩ ?_
    split <;> exact Unobtrusive.pure _ _
  · split
    · refine (unobtrusive_ask _).bind fun t => ?_
      exact Unobtrusive.bind (.modify fun _ => ⟨rfl, Nat.le_refl _⟩) fun _ => .pure _
    · exact .pure _

theorem unobtrusive_dispatch (frame : DecryptedFrame) : Unobtrusive (dispatch C frame) := by
  rw [dispatch]
  split
  · refine (unobtrusive_ask _).bind fun t => ?_
    refine Unobtrusive.bind (.modify fun _ => ⟨rfl, Nat.le_refl _⟩) fun _ => ?_
    refine (unobtrusive_maybeHandleMmpControl C frame).bind fun r => ?_
    split
    · exact .pure _
    · exact unobtrusive_dispatchToHandler C frame
  · exact unobtrusive_dispatchToHandler C frame

theorem unobtrusive_rejectFrame : Unobtrusive (rejectFrame C) := by
  refine (unobtrusive_ask _).bind fun t => ?_
  refine .get_bind fun s => ?_
  split
  · exact Unobtrusive.pure _ s
  · refine Unobtrusive.set_bind ⟨rfl, Nat.le_refl _⟩ ?_
    split
    · exact Unobtrusive.bind (unobtrusive_sendDisconnect C _) (fun _ => .throw _) _
    · exact Unobtrusive.pure _ _

theorem unobtrusive_settleWinner (frame : Bytes) (winner : Winner) :
    Unobtrusive (settleWinner C frame winner) := by
  cases winner with
  | cur => exact .pure _
  | pend =>
      refine (unobtrusive_promote _).bind fun _ => ?_
      refine (unobtrusive_ask _).bind fun _ => (unobtrusive_ask _).bind fun _ => ?_
      exact unobtrusive_afterPromotion C _ _
  | prev => exact (unobtrusive_ask _).bind fun _ => .modify fun _ => ⟨rfl, Nat.le_refl _⟩

theorem unobtrusive_handleEstablished (frame : Bytes) :
    Unobtrusive (handleEstablished C frame) := by
  refine (unobtrusive_openFrame C frame).bind fun r => ?_
  refine (unobtrusive_note _).bind fun _ => ?_
  split
  · exact unobtrusive_rejectFrame C
  · refine Unobtrusive.bind ?_ fun _ => ?_
    · refine (unobtrusive_refresh C).bind fun _ => ?_
      refine .get_bind fun s => ?_
      exact Unobtrusive.bind (unobtrusive_settleWinner C frame _) (fun _ => unobtrusive_emit _) s
    · refine (unobtrusive_dispatch C _).bind fun action => ?_
      refine (unobtrusive_processFrameAction C action).bind fun ended => ?_
      split
      · exact .throw _
      · exact .pure _

theorem unobtrusive_handleFrame (frame : Bytes) : Unobtrusive (handleFrame C frame) := by
  refine (unobtrusive_ask _).bind fun t => ?_
  refine .get_bind fun s => Unobtrusive.set_bind ⟨rfl, Nat.le_refl _⟩ ?_
  split
  · exact Unobtrusive.pure _ _
  · split
    · exact unobtrusive_handleMsg1 C _ _ _ _
    · split
      · exact unobtrusive_handleMsg3 C _ _ _ _
      · exact unobtrusive_handleEstablished C _ _
    · exact unobtrusive_handleMsg2 C _ _ _ _ _ _
    · exact unobtrusive_handleEstablished C _ _

theorem unobtrusive_handleFrames (frames : List Bytes) :
    Unobtrusive (handleFrames C frames) := by
  induction frames with
  | nil => exact .pure _
  | cons frame frames ih => exact (unobtrusive_handleFrame C frame).bind fun _ => ih

end Frames

section Timer

theorem unobtrusive_timerCutover (t : ℕ) : Unobtrusive (timerCutover C t) := by
  refine .get_bind fun s => ?_
  split
  · refine Unobtrusive.bind (unobtrusive_promote _) (fun _ => ?_) s
    exact Unobtrusive.bind (.modify fun _ => ⟨rfl, Nat.le_refl _⟩) fun _ =>
      unobtrusive_afterPromotion C t t
  · exact Unobtrusive.pure _ s

theorem unobtrusive_rekeyIfTriggered (t : ℕ) : Unobtrusive (rekeyIfTriggered C t) := by
  refine .get_bind fun s => ?_
  split
  · refine Unobtrusive.bind (unobtrusive_initiateRekey C) (fun r => ?_) s
    split
    · exact .pure _
    · exact Unobtrusive.bind (.modify fun _ => ⟨rfl, Nat.le_refl _⟩) fun _ => unobtrusive_note _
  · exact Unobtrusive.pure _ s

theorem unobtrusive_resendOrAbandon (t : ℕ) : Unobtrusive (resendOrAbandon C t) := by
  refine .get_bind fun s => ?_
  split
  · exact Unobtrusive.pure _ s
  · split
    · split
      · exact ⟨rfl, Nat.le_refl _⟩
      · refine Unobtrusive.bind (unobtrusive_sendFrame C _) (fun _ => ?_) s
        exact .modify fun _ => ⟨rfl, Nat.le_refl _⟩
    · exact Unobtrusive.pure _ s

theorem unobtrusive_sweep (t : ℕ) : Unobtrusive (sweep t : Action H M PUnit) :=
  .modify fun s => by split <;> exact ⟨rfl, Nat.le_refl _⟩

theorem unobtrusive_tickIfDue (tick : Option ℕ) (t : ℕ) : Unobtrusive (tickIfDue C tick t) := by
  cases tick with
  | none => exact .pure _
  | some deadline =>
      rw [tickIfDue]
      split
      · refine (unobtrusive_ask _).bind fun t => ?_
        refine .get_bind fun s => Unobtrusive.set_bind ⟨rfl, Nat.le_refl _⟩ ?_
        split
        · exact unobtrusive_sendLinkMessage C _ _ _
        · exact Unobtrusive.pure _ _
      · exact .pure _

theorem unobtrusive_checkLink : Unobtrusive (checkLink C) := by
  refine (unobtrusive_ask _).bind fun t => ?_
  refine .get_bind fun s => ?_
  split
  · exact Unobtrusive.bind (unobtrusive_sendDisconnect C _) (fun _ => .throw _) s
  · exact Unobtrusive.pure _ s

end Timer

section Deadlines

theorem leaves_buffer_heartbeatIfDue (t : ℕ) : Leaves buffer (heartbeatIfDue C t) := by
  refine .get_bind fun s => ?_
  split
  · refine Leaves.bind (unobtrusive_sendHeartbeat C).leaves_buffer (fun _ => ?_) s
    refine Leaves.bind (.modify fun _ => rfl) fun _ => ?_
    exact (unobtrusive_onEvent C _).leaves_buffer.bind fun _ => .pure _
  · exact .pure s _

theorem leaves_buffer_senderReportIfDueIk (t : ℕ) :
    Leaves buffer (senderReportIfDueIk C t) := by
  refine .get_bind fun s => ?_
  split
  · exact .set_bind rfl ((unobtrusive_sendReport C _ _).leaves_buffer _)
  · exact .pure s _

theorem leaves_buffer_senderReportIfDueXx (t : ℕ) :
    Leaves buffer (senderReportIfDueXx C t) := by
  refine .get_bind fun s => ?_
  split
  · refine Leaves.bind ?_ (fun _ => ?_) s
    · rw [senderReportXx]
      split
      · exact .get_bind fun s => .set_bind rfl ((unobtrusive_sendReport C _ _).leaves_buffer _)
      · exact .pure _
    · exact .modify fun _ => rfl
  · exact .pure s _

theorem leaves_buffer_receiverReportIfDueXx (t : ℕ) :
    Leaves buffer (receiverReportIfDueXx C t) := by
  refine .get_bind fun s => ?_
  split
  · refine .set_bind rfl ?_
    refine (unobtrusive_sendReport C _ _).leaves_buffer.bind (fun _ => ?_) _
    exact .modify fun _ => rfl
  · exact .pure s _

theorem leaves_buffer_plainReportIfDue (t : ℕ) : Leaves buffer (plainReportIfDue C t) := by
  refine .get_bind fun s => ?_
  split
  · refine .set_bind rfl ?_
    split
    · refine LeavesAt.get_bind ?_
      refine (unobtrusive_sendLinkMessage C _ _).leaves_buffer.bind (fun _ => ?_) _
      exact .modify fun _ => rfl
    · exact .pure _ _
  · exact .pure s _

theorem leaves_buffer_reportsIfDue (t : ℕ) : Leaves buffer (reportsIfDue C t) := by
  rw [reportsIfDue]
  split
  · exact leaves_buffer_senderReportIfDueIk C t
  · exact (leaves_buffer_senderReportIfDueXx C t).bind fun _ =>
      leaves_buffer_receiverReportIfDueXx C t
  · exact leaves_buffer_plainReportIfDue C t

theorem leaves_buffer_afterFrames (tick : Option ℕ) : Leaves buffer (afterFrames C tick) := by
  refine (unobtrusive_ask _).leaves_buffer.bind fun t => ?_
  refine (leaves_buffer_heartbeatIfDue C t).bind fun _ => ?_
  exact (leaves_buffer_reportsIfDue C t).bind fun _ =>
    (unobtrusive_tickIfDue C tick t).leaves_buffer

theorem leaves_buffer_heartbeatOrLeave (t : ℕ) : Leaves buffer (heartbeatOrLeave C t) := by
  refine (leaves_buffer_heartbeatIfDue C t).bind fun sent => ?_
  split
  · refine (unobtrusive_ask _).leaves_buffer.bind fun t => ?_
    refine .get_bind fun s => ?_
    split
    · exact (unobtrusive_sendDisconnect C _).leaves_buffer.bind (fun _ => .throw _) s
    · exact .pure s _
  · exact .pure _

theorem leaves_buffer_onTimer (tick : Option ℕ) : Leaves buffer (onTimer C tick) := by
  refine (unobtrusive_ask _).leaves_buffer.bind fun t => ?_
  refine (unobtrusive_timerCutover C t).leaves_buffer.bind fun _ => ?_
  refine (unobtrusive_rekeyIfTriggered C t).leaves_buffer.bind fun _ => ?_
  refine (unobtrusive_resendOrAbandon C t).leaves_buffer.bind fun _ => ?_
  refine (unobtrusive_sweep t).leaves_buffer.bind fun _ => ?_
  refine (leaves_buffer_heartbeatOrLeave C t).bind fun _ => ?_
  exact (leaves_buffer_reportsIfDue C t).bind fun _ =>
    (unobtrusive_tickIfDue C tick t).leaves_buffer

end Deadlines

end Steady
end Node
end Microfips

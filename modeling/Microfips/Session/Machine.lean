import Mathlib.Logic.Relation
import Microfips.Session.Handler
import Microfips.Session.Safety

/-!
# The session machine

What the session layer does with its keys, without the wire.  A session is dropped, answered and
established, it receives and delivers data messages and spends counters on replies.  A `Move` is
what one input does to the responder session and its trace; it carries the counter of the data
message in the input, if there is one.  Every input of `FspDualHandler` makes one move, so what
holds of all sequences of moves holds of every life of a handler.
-/

namespace Microfips
namespace Session

open Noise Wire Node

/-- The changes of a session that use no session key. -/
inductive Renewal : FspSession → FspSession → Prop where
  /-- The session is dropped. -/
  | reset (s : FspSession) : Renewal s FspSession.new
  /-- A setup is answered. -/
  | setup {s : FspSession} (r : SessionResponder) (h : s.state = .idle) (hr : r.Ready) :
      Renewal s { s with responder := some r, state := .awaitingMsg3 }
  /-- A msg3 fails on the handshake that waits for it. -/
  | rejectMsg3 {s : FspSession} (r : SessionResponder) (h : s.state = .awaitingMsg3)
      (hr : s.Sound → r.Ready) : Renewal s { s with responder := some r }

/-- What the invariants of the session layer are about: the responder session and the trace. -/
abbrev View : Type := FspSession × List FspEvent

/-- One move of the session machine, on an input that carries the data message `carried`. -/
inductive Move (carried : Option UInt64) : View → View → Prop where
  /-- The session changes without a use of its keys, or not at all. -/
  | renew {s t : FspSession} (tr : List FspEvent) (h : Relation.ReflTransGen Renewal s t) :
      Move carried (s, tr) (t, tr)
  /-- A msg3 completes the handshake. -/
  | establish {s : FspSession} (tr : List FspEvent) (r : SessionResponder) (static : Block 33)
      (kRecv kSend : Block 32) (h : s.state = .awaitingMsg3) (hr : s.responder = some r) :
      Move carried (s, tr)
        ({ state := .established, responder := none, kRecv := some kRecv, kSend := some kSend,
           initiatorPub := some static, sendCounter := s.sendCounter },
          .established (FspDualHandler.ephemeralOf r) kRecv kSend :: tr)
  /-- A data message goes no further. -/
  | refuse {s : FspSession} (tr : List FspEvent) {kRecv kSend : Block 32} {c : UInt64}
      (hc : carried = some c) (h : s.sessionKeys = some (kRecv, kSend)) :
      Move carried (s, tr) (s, .received kRecv c :: tr)
  /-- A data message is delivered and gets no reply. -/
  | deliver {s : FspSession} (tr : List FspEvent) {kRecv kSend : Block 32} {c : UInt64}
      (hc : carried = some c) (h : s.sessionKeys = some (kRecv, kSend)) :
      Move carried (s, tr) (s, .delivered kRecv c :: .received kRecv c :: tr)
  /-- A data message is delivered, and a counter is taken for a reply that is not sent. -/
  | skip {s : FspSession} (tr : List FspEvent) {kRecv kSend : Block 32} {c : UInt64}
      (hc : carried = some c) (h : s.sessionKeys = some (kRecv, kSend)) :
      Move carried (s, tr)
        ({ s with sendCounter := s.sendCounter + 1 },
          .took kSend s.sendCounter :: .delivered kRecv c :: .received kRecv c :: tr)
  /-- A data message is delivered and its reply is sealed. -/
  | reply {s : FspSession} (tr : List FspEvent) {kRecv kSend : Block 32} {c : UInt64}
      (hc : carried = some c) (h : s.sessionKeys = some (kRecv, kSend)) :
      Move carried (s, tr)
        ({ s with sendCounter := s.sendCounter + 1 },
          .sealed kSend s.sendCounter :: .took kSend s.sendCounter :: .delivered kRecv c ::
            .received kRecv c :: tr)

theorem Move.refl (carried : Option UInt64) (v : View) : Move carried v v :=
  .renew _ .refl

inductive Moves : List (Option UInt64) → View → View → Prop where
  | nil (v : View) : Moves [] v v
  | cons {carried : Option UInt64} {rest : List (Option UInt64)} {u v w : View}
      (h : Move carried u v) (hs : Moves rest v w) : Moves (carried :: rest) u w

theorem Moves.refl (inputs : List (Option UInt64)) (v : View) : Moves inputs v v := by
  induction inputs with
  | nil =>
      exact .nil v
  | cons carried rest ih =>
      exact .cons (.refl carried v) ih

namespace FspDualHandler

variable {A : Type}

def view (self : FspDualHandler A) : View :=
  (self.fspSession, self.trace)

/-- No run of `m` touches the responder session or the trace. -/
def Quiet {α : Type} (m : Action A α) : Prop :=
  EStateM.Keeps (fun s t => t.view = s.view) m

variable {α : Type}

theorem Quiet.pure (a : α) : Quiet (pure a : Action A α) :=
  EStateM.Keeps.pure (fun s => (rfl : s.view = s.view)) a

theorem Quiet.throw (e : Fault Empty) : Quiet (throw e : Action A α) :=
  EStateM.Keeps.throw_error (fun s => (rfl : s.view = s.view)) e

theorem Quiet.modify {f : FspDualHandler A → FspDualHandler A}
    (h : ∀ s, (f s).view = s.view) : Quiet (modify f) :=
  EStateM.Keeps.modify h

theorem Quiet.bind {β : Type} {m : Action A α} {f : α → Action A β} (hm : Quiet m)
    (hf : ∀ a, Quiet (f a)) : Quiet (m >>= f) :=
  EStateM.Keeps.bind (fun h => h) (fun h h' => h'.trans h) hm hf

theorem Quiet.get_bind {β : Type} {f : FspDualHandler A → Action A β}
    (hf : ∀ s, Quiet (f s)) : Quiet (get >>= f) :=
  EStateM.Keeps.get_bind fun s => hf s s

theorem quiet_onInitiator (fsp : FspInitiatorSession)
    (m : EStateM (Fault FspInitiatorError) FspInitiatorSession α) :
    Quiet (onInitiator fsp m : Action A _) := by
  intro s
  simp only [onInitiator, EStateM.run]
  split <;> rfl

theorem quiet_respond (respLen : ℕ) (data : Bytes) :
    Quiet (respond respLen data : Action A _) := by
  rw [respond]
  split
  · exact Quiet.throw _
  · exact Quiet.pure _

theorem quiet_setTimer (deadline : ℕ) : Quiet (setTimer deadline : Action A _) :=
  Quiet.modify fun _ => rfl

theorem quiet_handleInitiatorAck (S : Suite) (now : ℕ) (myAddr targetAddr : Block 16)
    (fsp : FspInitiatorSession) (fspData : Bytes) (respLen : ℕ) :
    Quiet (handleInitiatorAck S now myAddr targetAddr fsp fspData respLen : Action A _) := by
  refine (quiet_onInitiator _ _).bind fun r => ?_
  split
  · exact Quiet.pure _
  · refine Quiet.get_bind fun self => ?_
    split
    · exact Quiet.pure _
    · refine (quiet_onInitiator _ _).bind fun r => ?_
      split
      · exact Quiet.pure _
      · exact (quiet_respond _ _).bind fun _ =>
          (quiet_setTimer _).bind fun _ => Quiet.pure _

theorem quiet_handleInitiatorData (S : Suite) (fsp : FspInitiatorSession) (fspData : Bytes) :
    Quiet (handleInitiatorData S fsp fspData : Action A _) := by
  rw [handleInitiatorData]
  split
  · split
    · exact Quiet.pure _
    · split
      · exact Quiet.pure _
      · split
        · exact Quiet.pure _
        · refine Quiet.get_bind fun self => ?_
          split <;> exact Quiet.pure _
  · exact Quiet.pure _

theorem quiet_handleInitiator (S : Suite) (now : ℕ) (msgType : UInt8) (payload : Bytes)
    (respLen : ℕ) : Quiet (handleInitiator S now msgType payload respLen : Action A _) := by
  refine Quiet.get_bind fun self => ?_
  split
  · exact Quiet.pure _
  · split
    · split
      · exact Quiet.pure _
      · split
        · exact Quiet.pure _
        · split
          · exact Quiet.pure _
          · split
            · exact quiet_handleInitiatorAck S now _ _ _ _ respLen
            · exact Quiet.pure _
          · exact (quiet_setTimer _).bind fun _ => Quiet.pure _
          · split
            · exact quiet_handleInitiatorData S _ _
            · exact Quiet.pure _
    · exact Quiet.pure _

theorem quiet_sendPing (S : Suite) (now : ℕ) (myAddr targetAddr : Block 16)
    (fsp : FspInitiatorSession) (respLen : ℕ) :
    Quiet (sendPing S now myAddr targetAddr fsp respLen : Action A _) := by
  rw [sendPing]
  split
  · exact Quiet.pure _
  · refine Quiet.bind (Quiet.modify ?_) fun _ => ?_
    · exact fun _ => rfl
    · split
      · exact Quiet.pure _
      · exact (quiet_respond _ _).bind fun _ =>
          (quiet_setTimer _).bind fun _ => Quiet.pure _

theorem quiet_onTick (S : Suite) (now respLen : ℕ) :
    Quiet (onTick S now respLen : Action A _) := by
  refine Quiet.get_bind fun self => ?_
  split
  · split
    · refine (quiet_onInitiator _ _).bind fun r => ?_
      split
      · exact Quiet.pure _
      · refine (quiet_respond _ _).bind fun _ => Quiet.bind (Quiet.modify ?_) fun _ => ?_
        · exact fun _ => rfl
        · exact (quiet_setTimer _).bind fun _ => Quiet.pure _
    · split
      · exact (quiet_respond _ _).bind fun _ =>
          (quiet_setTimer _).bind fun _ => Quiet.pure _
      · exact (quiet_setTimer _).bind fun _ => Quiet.pure _
    · exact (quiet_setTimer _).bind fun _ => Quiet.pure _
    · exact quiet_sendPing S now _ _ _ respLen
  · exact Quiet.pure _

end FspDualHandler

namespace FspSession

theorem handleSetup_cases (S : Suite) (build : Build) (mySecret myEphemeral : Block 32)
    (myEpoch : Block 8) (setupData : Bytes) (ackLen : ℕ) (s : FspSession) :
    let t := ((handleSetup S build mySecret myEphemeral myEpoch setupData ackLen).run s).state
    t = s ∨ s.state = .idle ∧
      ∃ r, r.Ready ∧ t = { s with responder := some r, state := .awaitingMsg3 } := by
  intro t
  by_cases hidle : s.state = .idle
  · cases hparse : (parseSessionSetupFull setupData).mapError (Fault.map FspSessionError.ofFsp) with
    | error e =>
        exact .inl (by simp [t, handleSetup, hidle, hparse])
    | ok p =>
        obtain ⟨flags, src, handshake⟩ := p
        cases hans : answerSetup S build mySecret myEphemeral myEpoch src handshake ackLen with
        | error e =>
            exact .inl (by simp [t, handleSetup, hidle, hparse, hans])
        | ok p =>
            have hready := @safe_answerSetup S build mySecret myEphemeral myEpoch src handshake
              ackLen
            rw [hans] at hready
            exact .inr ⟨hidle, p.2, hready, by simp [t, handleSetup, hidle, hparse, hans]⟩
  · exact .inl (by simp [t, handleSetup, hidle])

theorem handleMsg3_cases (S : Suite) (build : Build) (msg3Data : Bytes) (s : FspSession) :
    match (handleMsg3 S build msg3Data).run s with
    | .ok _ t => s.state = .awaitingMsg3 ∧ ∃ (r r' : SessionResponder) (static : Block 33),
        s.responder = some r ∧
        t = { state := .established, responder := none, kRecv := some (r'.finalize S).1,
              kSend := some (r'.finalize S).2, initiatorPub := some static,
              sendCounter := s.sendCounter }
    | .error _ t => t = s ∨ s.state = .awaitingMsg3 ∧
        ∃ r, (s.Sound → r.Ready) ∧ t = { s with responder := some r } := by
  by_cases hstate : s.state = .awaitingMsg3
  · cases hparse : (parseSessionMsg3 msg3Data).mapError (Fault.map FspSessionError.ofFsp) with
    | error e =>
        simp [handleMsg3, hstate, hparse]
    | ok handshake =>
        by_cases hlen : msg3LengthOk build handshake = true
        · cases hr : s.responder with
          | none =>
              simp [handleMsg3, hstate, hparse, hlen, hr]
          | some r =>
              cases hread : (SessionResponder.readMsg3 S handshake).run r with
              | error e r' =>
                  simp only [handleMsg3, hstate, hparse, hlen, hr, hread, EStateM.run_bind,
                    EStateM.run_get, EStateM.run_set, ne_eq, not_true_eq_false, if_true, if_false]
                  refine .inr ⟨trivial, r', fun hs => ?_, rfl⟩
                  obtain ⟨_, _, hok, -⟩ | ⟨_, _, herr, hready⟩ :=
                    (SessionResponder.meets_readMsg3 (hs r hr) handshake).cases
                  · cases hread.symm.trans hok
                  · cases hread.symm.trans herr
                    exact hready
              | ok static r' =>
                  simp only [handleMsg3, hstate, hparse, hlen, hr, hread, EStateM.run_bind,
                    EStateM.run_get, EStateM.run_set, ne_eq, not_true_eq_false, if_true, if_false]
                  exact ⟨trivial, r, r', static, rfl, rfl⟩
        · simp [handleMsg3, hstate, hparse, hlen]
  · simp [handleMsg3, hstate]

end FspSession

namespace FspDualHandler

variable {A : Type}

@[simp]
theorem emit_run (e : FspEvent) (s : FspDualHandler A) :
    (emit e).run s = .ok ⟨⟩ { s with trace := e :: s.trace } :=
  rfl

variable {α : Type} {m : Action A α}

theorem onSession_run (m : EStateM (Fault FspSessionError) FspSession α) (s : FspDualHandler A) :
    (onSession m).run s =
      match m.run s.fspSession with
      | .ok a t => .ok (.ok a) { s with fspSession := t }
      | .error (.err e) t => .ok (.error e) { s with fspSession := t }
      | .error .panic t => .error .panic { s with fspSession := t } :=
  rfl

theorem onSession_view (m : EStateM (Fault FspSessionError) FspSession α) (s : FspDualHandler A) :
    ((onSession m).run s).state.view = ((m.run s.fspSession).state, s.trace) := by
  rw [onSession_run]
  split <;> simp_all [view]

/-- Every run of `m` renews the session and leaves the trace alone. -/
def Renews {α : Type} (m : Action A α) : Prop :=
  EStateM.Keeps (fun s t => Relation.ReflTransGen Renewal s.view.1 t.view.1 ∧
    t.view.2 = s.view.2) m

theorem Renews.bind {β : Type} {f : α → Action A β} (hm : Renews m) (hf : ∀ a, Renews (f a)) :
    Renews (m >>= f) :=
  EStateM.Keeps.bind (fun h => h) (fun h h' => ⟨h.1.trans h'.1, h'.2.trans h.2⟩) hm hf

theorem Quiet.renews (h : Quiet m) : Renews m := by
  intro s
  rw [h s]
  exact ⟨.refl, rfl⟩

theorem renews_reset :
    Renews (modify fun self : FspDualHandler A => { self with fspSession := FspSession.new }) :=
  EStateM.Keeps.modify fun _ => ⟨.single (.reset _), rfl⟩

theorem renews_handleSetup (S : Suite) (build : Build) (fspData : Bytes) (ackLen : ℕ) :
    Renews (handleSetup S build fspData ackLen : Action A _) := by
  refine EStateM.Keeps.get_bind fun s => ?_
  rw [onSession_view]
  refine ⟨?_, rfl⟩
  rcases FspSession.handleSetup_cases S build s.nsec s.fspEphemeral s.fspEpoch fspData ackLen
    s.fspSession with h | ⟨hidle, r, hr, h⟩
  · rw [h]
    exact .refl
  · rw [h]
    exact .single (.setup r hidle hr)

theorem renews_handleResponderSetup (S : Suite) (build : Build) (replyBody fspData : Bytes)
    (respLen : ℕ) :
    Renews (handleResponderSetup S build replyBody fspData respLen : Action A _) := by
  rw [handleResponderSetup]
  split
  · exact (Quiet.pure _).renews
  · refine (renews_handleSetup S build _ _).bind fun r => ?_
    split
    · exact (Quiet.pure _).renews
    · refine renews_reset.bind fun _ => (renews_handleSetup S build _ _).bind fun r => ?_
      split <;> exact (Quiet.pure _).renews
    · exact (Quiet.pure _).renews

/-- Every run of `m` is one move on an input that carries `carried`. -/
def Handles {α : Type} (carried : Option UInt64) (m : Action A α) : Prop :=
  EStateM.Keeps (fun s t => Move carried s.view t.view) m

theorem Renews.handles (h : Renews m) (carried : Option UInt64) : Handles carried m := by
  intro s
  obtain ⟨hsession, htrace⟩ := h s
  have hview : (m.run s).state.view = ((m.run s).state.view.1, s.trace) := Prod.ext rfl htrace
  rw [hview]
  exact .renew s.trace hsession

theorem Handles.bind_quiet {β : Type} {carried : Option UInt64} {f : α → Action A β}
    (hm : Handles carried m) (hf : ∀ a, Quiet (f a)) : Handles carried (m >>= f) :=
  EStateM.Keeps.bind (fun h => h) (fun h h' => h' ▸ h) hm hf

theorem handles_handleResponderMsg3 (S : Suite) (build : Build) (fspData : Bytes)
    (carried : Option UInt64) :
    Handles carried (handleResponderMsg3 S build fspData : Action A _) := by
  refine EStateM.Keeps.get_bind fun s => ?_
  have hsession := onSession_run (FspSession.handleMsg3 S build fspData) s
  have hcases := FspSession.handleMsg3_cases S build fspData s.fspSession
  cases hrun : (FspSession.handleMsg3 S build fspData).run s.fspSession with
  | ok _ t =>
      rw [hrun] at hcases hsession
      obtain ⟨hstate, r, r', static, hr, rfl⟩ := hcases
      rw [EStateM.run_bind_ok hsession]
      simp only [hr, EStateM.run_bind, EStateM.run_get, FspSession.sessionKeys, emit_run]
      exact .establish _ r static _ _ hstate hr
  | error e t =>
      rw [hrun] at hcases hsession
      have hmove : Move carried s.view (t, s.trace) := by
        rcases hcases with rfl | ⟨hstate, r, hr, rfl⟩
        · exact .refl _ _
        · exact .renew _ (.single (.rejectMsg3 r hstate hr))
      cases e with
      | err e =>
          rw [EStateM.run_bind_ok hsession]
          exact hmove
      | panic =>
          rw [EStateM.run_bind_error hsession]
          exact hmove

theorem deliver_run (handler : FspAppHandler A) (srcAddr : Block 16) (msgType : UInt8)
    (payload : Bytes) (room : ℕ) (s : FspDualHandler A) :
    ∃ result app, (deliver handler srcAddr msgType payload room).run s =
      .ok result { s with app := app } := by
  rw [deliver]
  split
  · exact ⟨_, _, rfl⟩
  · exact ⟨_, _, rfl⟩

/-- The session and the trace after a reply: nothing happened, a counter was taken, or a reply
was sealed under it. -/
theorem sealReply_cases (S : Suite) (appBuf : ℕ) (replyBody : Bytes) (kSend : Block 32)
    (msgType : UInt8) (payload : Bytes) (respLen : ℕ) (s : FspDualHandler A) :
    let v := ((sealReply S appBuf replyBody kSend msgType payload respLen).run s).state.view
    let n := s.fspSession.sendCounter
    v = s.view ∨
      v = ({ s.fspSession with sendCounter := n + 1 }, .took kSend n :: s.trace) ∨
      v = ({ s.fspSession with sendCounter := n + 1 },
        .sealed kSend n :: .took kSend n :: s.trace) := by
  intro v n
  simp only [v, n, sealReply]
  split
  · exact .inl rfl
  · simp only [EStateM.run_bind, EStateM.run_get, EStateM.run_set, emit_run]
    split
    · exact .inr (.inl rfl)
    · split
      · exact .inr (.inl rfl)
      · exact .inr (.inr rfl)

theorem handles_handleResponderData (S : Suite) (handler : FspAppHandler A) (appBuf : ℕ)
    (srcAddr : Block 16) (replyBody fspData : Bytes) (respLen : ℕ) :
    Handles ((parseFspEncryptedHeader fspData).map FspEncrypted.counter)
      (handleResponderData S handler appBuf srcAddr replyBody fspData respLen) := by
  refine EStateM.Keeps.get_bind fun s => ?_
  split
  · exact .refl _ _
  · split
    · rename_i message kRecv kSend hparse hkeys
      have hc : (parseFspEncryptedHeader fspData).map FspEncrypted.counter =
          some message.counter := by rw [hparse]; rfl
      rw [EStateM.run_bind_ok (emit_run _ s)]
      split
      · exact .refuse _ hc hkeys
      · split
        · exact .refuse _ hc hkeys
        · split
          · exact .refuse _ hc hkeys
          · split
            · exact .refuse _ hc hkeys
            · rename_i msgType _ payload _ _
              obtain ⟨result, app, hrun⟩ := deliver_run handler srcAddr msgType payload
                (respLen - appOffset)
                { s with
                  trace := .delivered kRecv message.counter ::
                    .received kRecv message.counter :: s.trace }
              rw [EStateM.run_bind_ok (emit_run _ _), EStateM.run_bind_ok hrun]
              split
              · exact .deliver _ hc hkeys
              · exact .deliver _ hc hkeys
              · split
                · exact .deliver _ hc hkeys
                · rename_i replyType reply _
                  rcases sealReply_cases S appBuf replyBody kSend replyType reply respLen
                    { s with app := app, trace := _ } with h | h | h
                  · rw [h]
                    exact .deliver _ hc hkeys
                  · rw [h]
                    exact .skip _ hc hkeys
                  · rw [h]
                    exact .reply _ hc hkeys
    · exact .refl _ _

/-- The counter of the data message that an input carries. -/
def Input.carried : Input → Option UInt64
  | .message _ _ payload _ =>
      (parseFspEncryptedHeader (payload.drop sessionDatagramBodySize)).map FspEncrypted.counter
  | _ => none

theorem handles_handleResponder (S : Suite) (build : Build) (handler : FspAppHandler A)
    (appBuf now : ℕ) (msgType : UInt8) (payload : Bytes) (respLen : ℕ) :
    Handles (Input.message now msgType payload respLen).carried
      (handleResponder S build handler appBuf msgType payload respLen) := by
  rw [handleResponder, Input.carried]
  split
  · exact (Quiet.pure _).renews.handles _
  · simp only
    split
    · exact (Quiet.pure _).renews.handles _
    · rename_i first rest hdrop
      rw [hdrop]
      split
      · exact (renews_handleResponderSetup S build _ _ respLen).handles _
      · split
        · exact handles_handleResponderMsg3 S build _ _
        · split
          · exact handles_handleResponderData S handler appBuf _ _ _ respLen
          · exact (Quiet.pure _).renews.handles _

theorem renews_onEventDefault (now : ℕ) (event : NodeEvent) :
    Renews (onEventDefault now event : Action A _) := by
  cases event with
  | handshakeOk =>
      exact EStateM.Keeps.modify fun _ => ⟨.single (.reset _), rfl⟩
  | disconnected =>
      exact (Quiet.modify fun _ => rfl).renews
  | error =>
      exact (Quiet.modify fun _ => rfl).renews
  | _ =>
      exact (Quiet.pure _).renews

theorem handles_step (S : Suite) (build : Build) (handler : FspAppHandler A) (appBuf : ℕ)
    (input : Input) : Handles input.carried (step S build handler appBuf input) := by
  cases input with
  | event now event =>
      exact ((renews_onEventDefault now event).handles _).bind_quiet fun _ => Quiet.pure _
  | message now msgType payload respLen =>
      refine (handles_handleResponder S build handler appBuf now msgType payload
        respLen).bind_quiet fun r => ?_
      split
      · exact quiet_handleInitiator S now msgType payload respLen
      · exact Quiet.pure _
  | tick now respLen =>
      exact (quiet_onTick S now respLen).renews.handles _
  | setLinkPubkey pk =>
      have hset : Quiet (modify fun self : FspDualHandler A => { self with linkPubkey := pk }) :=
        Quiet.modify fun _ => rfl
      exact (hset.bind fun _ => Quiet.pure _).renews.handles _

theorem run_moves (S : Suite) (build : Build) (handler : FspAppHandler A) (appBuf : ℕ)
    (inputs : List Input) (s : FspDualHandler A) :
    Moves (inputs.map Input.carried) s.view
      ((run S build handler appBuf inputs).run s).state.view := by
  induction inputs generalizing s with
  | nil =>
      exact .nil _
  | cons input inputs ih =>
      have hstep := handles_step S build handler appBuf input s
      rw [run]
      cases hrun : (step S build handler appBuf input).run s with
      | ok _ t =>
          rw [hrun] at hstep
          rw [EStateM.run_bind_ok hrun]
          exact .cons hstep (ih t)
      | error _ t =>
          -- a panic ends the run, the inputs after it do nothing
          rw [hrun] at hstep
          rw [EStateM.run_bind_error hrun]
          exact .cons hstep (.refl _ _)

inductive Created (S : Suite) (build : Build) : FspDualHandler A → Prop where
  | responder (nsec ephemeral : Block 32) (fspEpoch : Block 8) (app : A) :
      Created S build (newResponder nsec ephemeral fspEpoch app)
  | dual (nsec responderEphemeral initiatorEphemeral : Block 32) (targetPub : Block 33)
      (targetAddr : Block 16) (fspEpoch : Block 8) (app : A) :
      Created S build (newDual S build nsec responderEphemeral initiatorEphemeral targetPub
        targetAddr fspEpoch app)

theorem Created.view_eq {S : Suite} {build : Build} {h : FspDualHandler A}
    (hnew : Created S build h) : h.view = (FspSession.new, []) := by
  cases hnew with
  | responder => rfl
  | dual => rfl

end FspDualHandler
end Session
end Microfips

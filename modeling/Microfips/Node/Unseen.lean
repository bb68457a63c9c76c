import Microfips.Data.Isolation
import Microfips.Node.Session

/-!
# What a handshake does not see

Between two waits a handshake asks the world, calls its handler and sends frames.  A component of
the node that those calls neither read nor write is left alone by all of the code between two
waits, up to the point where the negotiation payload of the peer is applied.
-/

namespace Microfips
namespace Node
namespace Handshake

open Noise Wire Component

variable {H M τ : Type}

/-- The component has nothing to do with what the calls of a handshake read and write. -/
structure Apart (c : Component (Handshake H) τ) : Prop where
  calls_put : ∀ x s, (c.put x s).calls = s.calls
  handler_put : ∀ x s, (c.put x s).handler = s.handler
  sent_put : ∀ x s, (c.put x s).sent = s.sent
  peerSentFirst_put : ∀ x s, (c.put x s).peerSentFirst = s.peerSentFirst
  put_calls : ∀ x (s : Handshake H) n,
    c.put x { s with calls := n } = { c.put x s with calls := n }
  put_handler : ∀ x (s : Handshake H) h,
    c.put x { s with handler := h } = { c.put x s with handler := h }
  put_sent : ∀ x (s : Handshake H) frames,
    c.put x { s with sent := frames } = { c.put x s with sent := frames }

variable {c : Component (Handshake H) τ}

variable {α : Type}

theorem blind_okOr (e : ProtocolError) (x : Option α) : c.Blind (okOr e x) := by
  cases x with
  | none => exact .throw _
  | some a => exact .pure a

theorem blind_orErr (f : NoiseError → ProtocolError) (x : Except NoiseError α) :
    c.Blind (orErr f x) := by
  cases x with
  | error e => exact .throw _
  | ok a => exact .pure a

theorem blind_within {σ : Type} (f : NoiseError → ProtocolError)
    (m : EStateM (Fault NoiseError) σ α) (object : σ) : c.Blind (within f m object) := by
  rw [within]
  split
  · exact .pure _
  · exact .throw _
  · exact .throw _

variable (hc : Apart c) (C : Config H M)

include hc

theorem blind_ask (answer : ℕ → α) : c.Blind (ask answer) := by
  intro s x
  rw [ask, EStateM.run_get_bind, EStateM.run_get_bind, EStateM.run_set_bind, EStateM.run_set_bind,
    hc.calls_put]
  exact congrArg (EStateM.Result.ok _) (hc.put_calls x s _).symm

theorem blind_transportSend (data : Bytes) : c.Blind (transportSend C data) := by
  refine (blind_ask hc _).bind fun sent => ?_
  split
  · exact .pure _
  · exact .throw _

theorem blind_sendFrame (payload : Bytes) : c.Blind (sendFrame C payload) := by
  refine Blind.bind ?_ fun _ => .modify fun x s => ?_
  · rw [sendParts]
    split
    · exact blind_transportSend hc C _
    · exact (blind_transportSend hc C _).bind fun _ => blind_transportSend hc C _
  · rw [hc.sent_put]
    exact (hc.put_sent x s _).symm

theorem blind_onEvent (event : NodeEvent) : c.Blind (onEvent C event) := by
  refine (blind_ask hc _).bind fun t => .modify fun x s => ?_
  rw [hc.handler_put]
  exact (hc.put_handler x s _).symm

omit hc in
theorem blind_newInitiator (myPub : Block 33) (eph : Block 32) :
    c.Blind (newInitiator C myPub eph) := by
  rw [newInitiator]
  split
  · exact (blind_orErr _ _).bind fun _ => (blind_within _ _ _).bind fun _ => .pure _
  · exact (blind_orErr _ _).bind fun _ => (blind_within _ _ _).bind fun _ => .pure _

theorem blind_begin : c.Blind (begin C) := by
  refine (blind_orErr _ _).bind fun myPub => (blind_ask hc _).bind fun eph => ?_
  refine (blind_newInitiator C _ _).bind fun r => (blind_ask hc _).bind fun ourIndex => ?_
  refine (blind_okOr _ _).bind fun msg1 => .get_bind (fun x s => ?_) fun s => ?_
  · simp only [hc.peerSentFirst_put]
  · split
    · exact .pure s _
    · exact (blind_sendFrame hc C _).bind (fun _ => (blind_onEvent hc C _).bind fun _ => .pure _) s

omit hc in
theorem blind_completeIk (hs : NoiseIkInitiator) (senderIdx : SessionIndex) (np : Bytes) :
    c.Blind (completeIk C hs senderIdx np) :=
  (blind_within _ _ _).bind fun _ => .pure _

theorem blind_sendMsg3 (o : Opening) (hs : NoiseXxInitiator) (senderIdx : SessionIndex) :
    c.Blind (sendMsg3 C o hs senderIdx) := by
  refine (blind_within _ _ _).bind fun n3 => (blind_okOr _ _).bind fun neg => ?_
  refine (blind_within _ _ _).bind fun sealedNeg => (blind_okOr _ _).bind fun msg3 => ?_
  exact (blind_sendFrame hc C _).bind fun _ => .pure _

theorem blind_answerIk (peerSenderIdx : SessionIndex) (np : Bytes) :
    c.Blind (answerIk C peerSenderIdx np) := by
  rw [answerIk]
  split
  · exact .throw _
  · refine (blind_orErr _ _).bind fun responder => (blind_within _ _ _).bind fun r => ?_
    split
    · refine (blind_ask hc _).bind fun respEph => (blind_within _ _ _).bind fun n2 => ?_
      refine (blind_ask hc _).bind fun respIndex => (blind_okOr _ _).bind fun msg2 => ?_
      exact (blind_sendFrame hc C _).bind fun _ => .pure _
    · exact .throw _

omit hc in
theorem blind_writeMsg2 (responder : NoiseXxResponder) (respEph : Block 32) :
    c.Blind (writeMsg2 C responder respEph) := by
  refine (blind_within _ _ _).bind fun n2 => (blind_okOr _ _).bind fun neg => ?_
  exact (blind_within _ _ _).bind fun _ => .pure _

theorem blind_answerXx (peerSenderIdx : SessionIndex) (np : Bytes) :
    c.Blind (answerXx C peerSenderIdx np) := by
  refine (blind_orErr _ _).bind fun responder => (blind_within _ _ _).bind fun r => ?_
  refine (blind_ask hc _).bind fun respEph => (blind_writeMsg2 C _ _).bind fun n2 => ?_
  refine (blind_ask hc _).bind fun respIndex => (blind_okOr _ _).bind fun msg2 => ?_
  exact (blind_sendFrame hc C _).bind fun _ => .pure _

theorem blind_answer (peerSenderIdx : SessionIndex) (np : Bytes) :
    c.Blind (answer C peerSenderIdx np) := by
  rw [answer]
  split
  · exact (blind_answerIk hc C _ _).bind fun _ => .pure _
  · exact (blind_answerXx hc C _ _).bind fun _ => .pure _

theorem blind_onMsg1 (o : Opening) (peerSenderIdx : SessionIndex) (np : Bytes) :
    c.Blind (onMsg1 C o peerSenderIdx np) := by
  refine .get_bind (fun x s => ?_) fun s => ?_
  · simp only [hc.peerSentFirst_put]
  · split
    · exact .throw s _
    · split
      · exact .pure s _
      · exact blind_answer hc C _ _ s

theorem blind_onTimeout (phase : Phase) : c.Blind (onTimeout C phase) := by
  cases phase with
  | opening o =>
      refine Blind.bind (.get_bind (fun x s => ?_) fun s => ?_) fun _ => .pure _
      · simp only [hc.peerSentFirst_put]
      · split
        · exact .throw s _
        · split
          · exact .pure s _
          · exact (blind_sendFrame hc C _).bind (fun _ => .pure _) s
  | answering a =>
      refine Blind.bind ?_ fun _ => .pure _
      rw [onTimeoutAnswering]
      split
      · exact .throw _
      · exact (blind_sendFrame hc C _).bind fun _ => .pure _

end Handshake
end Node
end Microfips

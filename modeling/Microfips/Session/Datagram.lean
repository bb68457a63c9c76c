import Microfips.Noise.Additive
import Microfips.Session.Machine

/-!
# Datagrams do not panic the handler

`on_message` on any datagram, in any state that a handler can reach.  The only reads out of bounds
are those of the counts of a setup or an ack that ends inside them.
-/

namespace Microfips
namespace Session

open Noise Wire Node EStateM

theorem Renewal.sound {s t : FspSession} (h : Renewal s t) (hs : s.Sound) : t.Sound := by
  cases h with
  | reset => exact fun r hr => by cases hr
  | setup r _ hr => exact fun r' hr' => Option.some.inj hr' ▸ hr
  | rejectMsg3 r _ hr => exact fun r' hr' => Option.some.inj hr' ▸ hr hs

theorem Move.sound {carried : Option UInt64} {v w : View} (h : Move carried v w)
    (hv : v.1.Sound) : w.1.Sound := by
  cases h with
  | renew tr h =>
      induction h with
      | refl => exact hv
      | tail _ hstep ih => exact hstep.sound ih
  | establish => exact fun r hr => by cases hr
  | refuse => exact hv
  | deliver => exact hv
  | skip => exact hv
  | reply => exact hv

theorem Moves.sound {inputs : List (Option UInt64)} {v w : View} (h : Moves inputs v w)
    (hv : v.1.Sound) : w.1.Sound := by
  induction h with
  | nil => exact hv
  | cons h _ ih => exact ih (h.sound hv)

theorem icmpv6EchoReply_length {servicePayload reply : Bytes} {outLen : ℕ}
    (h : icmpv6EchoReply servicePayload outLen = some reply) : reply.length ≤ outLen := by
  rw [icmpv6EchoReply] at h
  split at h
  · cases h
  · split at h
    · cases h
    · dsimp only at h
      split at h
      · cases h
      · split at h
        · cases h
        · cases h
          simp [Bytes.slice]
          omega

theorem hasPhase_buildFspHeader (counter : UInt64) (flags : UInt8) (n : ℕ) (rest : Bytes) :
    HasPhase .established (buildFspHeader counter flags n ++ rest) := by
  have hfirst : (buildFspHeader counter flags n ++ rest).getD 0 0 = 0 := rfl
  rw [HasPhase, hfirst]
  decide

/-- The application never returns a reply longer than the room it was given. -/
def FspAppHandler.Fits {A : Type} (handler : FspAppHandler A) : Prop :=
  ∀ app msgType payload room peer kind reply,
    (handler.onFspMessage app msgType payload room peer).1 = .reply kind reply →
      reply.length ≤ room

namespace FspDualHandler

variable {A : Type} {S : Suite} {build : Build} {h : FspDualHandler A}

abbrev Returns {α : Type} (h : FspDualHandler A) (m : Action A α) : Prop :=
  m.Meets h (fun _ _ => True) fun _ => False

theorem returns_onSession {α : Type} {m : EStateM (Fault FspSessionError) FspSession α}
    {Q : α → FspSession → Prop} {E : FspSession → Prop} (hm : m.Meets h.fspSession Q E) :
    Returns h (onSession m) := by
  obtain ⟨a, t, hrun, -⟩ | ⟨e, t, hrun, -⟩ := hm.cases
  · exact .of_ok (by rw [onSession_run, hrun]) trivial
  · exact .of_ok (by rw [onSession_run, hrun]) trivial

variable {fspData : Bytes} {handler : FspAppHandler A}

theorem returns_handleSetup (hfit : CountsFit fspData) (ackLen : ℕ) :
    Returns h (handleSetup S build fspData ackLen) :=
  .get_bind (returns_onSession (FspSession.meets_handleSetup _ _ _ hfit _))

theorem returns_handleResponderSetup (replyBody : Bytes) (hfit : CountsFit fspData) (respLen : ℕ) :
    Returns h (handleResponderSetup S build replyBody fspData respLen) := by
  rw [handleResponderSetup]
  split
  · exact .pure trivial
  · refine (returns_handleSetup hfit _).bind fun r t _ => ?_
    split
    · exact .pure trivial
    · refine .modify_bind ((returns_handleSetup hfit _).bind fun r t _ => ?_)
      split <;> exact .pure trivial
    · exact .pure trivial

theorem returns_handleResponderMsg3 (hs : h.fspSession.Sound) (fspData : Bytes) :
    Returns h (handleResponderMsg3 S build fspData) := by
  refine .get_bind ((returns_onSession (FspSession.meets_handleMsg3 hs _)).bind fun r t _ => ?_)
  split
  · exact .pure trivial
  · refine .get_bind ?_
    split
    · exact .modify_bind (.pure trivial)
    · exact .pure trivial

theorem meets_deliver (hfits : handler.Fits) (srcAddr : Block 16) (msgType : UInt8)
    (payload : Bytes) (room : ℕ) :
    (deliver handler srcAddr msgType payload room).Meets h
      (fun r _ => ∀ kind reply, r = .reply kind reply → reply.length ≤ room) fun _ => False := by
  rw [deliver]
  split
  · rename_i reply hreply
    refine .pure fun kind reply' heq => ?_
    obtain ⟨-, rfl⟩ := FspAppResult.reply.inj heq
    split at hreply
    · exact icmpv6EchoReply_length hreply
    · cases hreply
  · exact .get_bind (.set_bind (.pure fun kind reply heq => hfits _ _ _ _ _ _ _ heq))

/-- A datagram that answers with the header `replyBody` carries a data message. -/
def Answers (replyBody : Bytes) (r : HandleResult) : Prop :=
  ∀ data, r = .sendDatagram data →
    ∃ message, HasPhase .established message ∧ data = replyBody ++ message

theorem meets_sealReply (appBuf : ℕ) (replyBody : Bytes) (kSend : Block 32) (msgType : UInt8)
    (payload : Bytes) (respLen : ℕ) :
    (sealReply S appBuf replyBody kSend msgType payload respLen).Meets h
      (fun r _ => Answers replyBody r) fun _ => False := by
  have hnone : Answers replyBody .none := by
    intro data hdata
    cases hdata
  rw [sealReply]
  split
  · exact .pure hnone
  · refine .get_bind (.set_bind (.modify_bind ?_))
    dsimp only
    split
    · exact .pure hnone
    · split
      · exact .pure hnone
      · refine .modify_bind (.pure fun data hdata => ?_)
        obtain rfl := HandleResult.sendDatagram.inj hdata
        exact ⟨_, hasPhase_buildFspHeader _ _ _ _, List.append_assoc _ _ _⟩

theorem meets_handleResponderData (hfits : handler.Fits) (appBuf : ℕ) (srcAddr : Block 16)
    (replyBody fspData : Bytes) (respLen : ℕ) :
    (handleResponderData S handler appBuf srcAddr replyBody fspData respLen).Meets h
      (fun r _ => Answers replyBody r) fun _ => False := by
  have hnone : Answers replyBody .none := by
    intro data hdata
    cases hdata
  refine .get_bind ?_
  split
  · exact .pure hnone
  · split
    · refine .modify_bind ?_
      split
      · exact .pure hnone
      · split
        · exact .pure hnone
        · split
          · exact .pure hnone
          · split
            · exact .pure hnone
            · refine .modify_bind ((meets_deliver hfits _ _ _ _).bind fun r t hr => ?_)
              split
              · exact .pure hnone
              · refine .pure fun data hdata => ?_
                cases hdata
              · split
                · rename_i kind reply hlong
                  exact absurd (hr kind reply rfl) (by omega)
                · exact meets_sealReply _ _ _ _ _ _
    · exact .pure hnone

theorem returns_handleResponder (hfits : handler.Fits) (appBuf : ℕ) (hs : h.fspSession.Sound)
    (msgType : UInt8) {payload : Bytes} (hfit : CountsFit (payload.drop sessionDatagramBodySize))
    (respLen : ℕ) : Returns h (handleResponder S build handler appBuf msgType payload respLen) := by
  rw [handleResponder]
  split
  · exact .pure trivial
  · split
    · exact .pure trivial
    · rename_i first rest hdata
      rw [hdata] at hfit
      dsimp only
      split
      · exact returns_handleResponderSetup _ hfit _
      · split
        · exact returns_handleResponderMsg3 hs _
        · split
          · exact (meets_handleResponderData hfits _ _ _ _ _).mono (fun _ _ _ => trivial)
              fun _ h => h
          · exact .pure trivial

theorem meets_onInitiator {α : Type} {fsp : FspInitiatorSession}
    {m : EStateM (Fault FspInitiatorError) FspInitiatorSession α}
    {Q : α → FspInitiatorSession → Prop} {E : FspInitiatorSession → Prop} (hm : m.Meets fsp Q E) :
    (onInitiator fsp m : Action A _).Meets h
      (fun r t => ∀ a, r = .ok a → ∃ fsp, t.initiator = some fsp ∧ Q a fsp) fun _ => False := by
  obtain ⟨a, t, hrun, hQ⟩ | ⟨e, t, hrun, -⟩ := hm.cases
  · refine .of_ok (by rw [EStateM.run, onInitiator, hrun]) fun b hb => ⟨t, rfl, ?_⟩
    exact Except.ok.inj hb ▸ hQ
  · exact .of_ok (by rw [EStateM.run, onInitiator, hrun]) fun b hb => by cases hb

theorem returns_handleInitiatorAck (now : ℕ) (myAddr targetAddr : Block 16)
    (fsp : FspInitiatorSession) (hfit : CountsFit fspData) {respLen : ℕ} (hroom : 141 ≤ respLen) :
    Returns h (handleInitiatorAck S now myAddr targetAddr fsp fspData respLen) := by
  refine (meets_onInitiator (FspInitiatorSession.meets_handleAck hfit)).bind fun r t ht => ?_
  split
  · exact .pure trivial
  · obtain ⟨fsp, hfsp, hready⟩ := ht _ rfl
    refine .get_bind ?_
    simp only [hfsp]
    refine (meets_onInitiator (FspInitiatorSession.meets_buildMsg3 hready _ _)).bind
      fun r t ht => ?_
    split
    · exact .pure trivial
    · rename_i msg3
      obtain ⟨-, -, hlen⟩ := ht msg3 rfl
      have hsize : ¬ respLen < (buildSessionDatagramBody myAddr targetAddr ++ msg3).length := by
        simp [buildSessionDatagramBody]
        omega
      rw [respond, if_neg hsize]
      exact .bind (Q := fun _ _ => True) (.pure trivial) fun _ _ _ => .modify_bind (.pure trivial)

theorem returns_handleInitiatorData (fsp : FspInitiatorSession) (fspData : Bytes) :
    Returns h (handleInitiatorData S fsp fspData) := by
  rw [handleInitiatorData]
  split
  · split
    · exact .pure trivial
    · split
      · exact .pure trivial
      · split
        · exact .pure trivial
        · refine .get_bind ?_
          split <;> exact .pure trivial
  · exact .pure trivial

theorem returns_handleInitiator (now : ℕ) (msgType : UInt8) {payload : Bytes}
    (hfit : CountsFit (payload.drop sessionDatagramBodySize)) {respLen : ℕ}
    (hroom : 141 ≤ respLen) : Returns h (handleInitiator S now msgType payload respLen) := by
  refine .get_bind ?_
  split
  · exact .pure trivial
  · split
    · split
      · exact .pure trivial
      · split
        · exact .pure trivial
        · rename_i first rest hdata
          rw [hdata] at hfit
          split
          · exact .pure trivial
          · split
            · exact returns_handleInitiatorAck _ _ _ _ hfit hroom
            · exact .pure trivial
          · exact .modify_bind (.pure trivial)
          · split
            · exact returns_handleInitiatorData _ _
            · exact .pure trivial
    · exact .pure trivial

namespace Scenario

def silent : FspAppHandler PUnit where
  onFspMessage app _ _ _ _ := (.none, app)

/-- A dual handler on the additive suite that has answered the setup `fspData`. -/
def answering (fspData : Bytes) : FspDualHandler PUnit :=
  ((run Additive.suite .ik silent 512
    [.event 0 .handshakeOk, .tick 10 320, .message 20 msgSessionDatagram
      (buildSessionDatagramBody (Block.replicate 16 1) (Block.replicate 16 2) ++ fspData) 320]).run
    (newDual Additive.suite .ik (Additive.keypair 3).secret (Additive.keypair 4).secret
      (Additive.keypair 5).secret (Additive.keypair 1).pub (Block.replicate 16 1)
      (Block.replicate 8 6) ⟨⟩)).state

def setup : Bytes :=
  ((buildSessionSetup 0 [Block.replicate 16 1] [Block.replicate 16 2] (Additive.keypair 7).pub.bytes
    512).toOption).getD []

def cutSetup : Bytes :=
  [0x01, 0, 19, 0] ++ [0, 1, 0] ++ List.replicate 16 0

def cutAck : Bytes :=
  [0x02, 0, 1, 0] ++ [0]

end Scenario

end FspDualHandler
end Session
end Microfips

import Microfips.Session.Replay

/-!
# Rejected messages

What is left of a responder session after a message that it rejects.  A setup that comes while the
session is not idle resets it first and is looked at then, so a setup that is rejected has already
destroyed the session.  A msg3 is read into the waiting handshake field by field: one that fails
before its static key opened leaves the handshake as it was, and one that fails behind it leaves
keys in it with which the genuine msg3 does not open any more.
-/

namespace Microfips
namespace Session

open Noise Wire

inductive FspHandlerResult where
  | none
  | sendDatagram (data : Bytes)
  deriving DecidableEq

inductive FspHandlerError where
  | setup (e : FspSessionError)
  | msg3 (e : FspSessionError)
  | decryptFailed
  | innerHeaderTooShort
  | bufferTooSmall
  | unknownPhase
  deriving DecidableEq

namespace FspSession

/-- Where `handle_setup` returns `InvalidState`, the session is reset and the setup is handled
again. -/
def handleSetupAgain (S : Suite) (build : Build) (secret ephemeral : Block 32) (epoch : Block 8)
    (fspData : Bytes) (ackLen : ℕ) : EStateM (Fault FspSessionError) FspSession Bytes := fun self =>
  match (handleSetup S build secret ephemeral epoch fspData ackLen).run self with
  | .error (.err .invalidState) _ =>
      (handleSetup S build secret ephemeral epoch fspData ackLen).run FspSession.new
  | r => r

/-- The data branch of `handle_fsp_datagram`. -/
def openData (S : Suite) (fspData : Bytes) :
    EStateM (Fault FspHandlerError) FspSession FspHandlerResult := do
  let self ← get
  if self.state ≠ .established then
    return .none
  else
    match self.sessionKeys, parseFspEncryptedHeader fspData with
    | some (kRecv, _), some message =>
        if message.flags &&& flagUnencrypted ≠ 0 then
          return .none
        else
          match aeadDecrypt S kRecv message.counter message.header message.payload 512 with
          | .error _ => throw (.err .decryptFailed)
          | .ok decrypted =>
              match fspStripInnerHeader decrypted with
              | none => throw (.err .innerHeaderTooShort)
              | some _ => return .none
    | _, _ => return .none

/-- `handle_fsp_datagram` with a response buffer of `respLen` bytes. -/
def handleFspDatagram (S : Suite) (build : Build) (secret ephemeral : Block 32) (epoch : Block 8)
    (payload : Bytes) (respLen : ℕ) :
    EStateM (Fault FspHandlerError) FspSession FspHandlerResult := do
  if payload.length < sessionDatagramBodySize then
    return .none
  else
    let srcAddr := Block.ofBytes 16 (Bytes.slice 3 19 payload)
    let dstAddr := Block.ofBytes 16 (Bytes.slice 19 35 payload)
    let replyBody := buildSessionDatagramBody dstAddr srcAddr
    match payload.drop sessionDatagramBodySize with
    | [] => return .none
    | first :: rest =>
        let fspData := first :: rest
        if first &&& 0x0F = Phase.sessionSetup.toUInt8 then
          let ack ← EStateM.mapFault .setup
            (handleSetupAgain S build secret ephemeral epoch fspData 512)
          if respLen < sessionDatagramBodySize + ack.length then
            throw (.err .bufferTooSmall)
          else
            return .sendDatagram (replyBody ++ ack)
        else if first &&& 0x0F = Phase.sessionMsg3.toUInt8 then
          EStateM.mapFault .msg3 (handleMsg3 S build fspData)
          return .none
        else if first &&& 0x0F = Phase.established.toUInt8 then
          openData S fspData
        else
          throw (.err .unknownPhase)

end FspSession

namespace SessionResponder

def sym : SessionResponder → SymmetricState
  | xk r => r.sym
  | xx r => r.sym

/-- The static key in the handshake bytes of a msg3 opens under the key of the handshake:
`read_message3` gets past its first decryption. -/
def staticOpens (S : Suite) (self : SessionResponder) (handshake : Bytes) : Bool :=
  match self.sym.k with
  | none => false
  | some k => (aeadDecrypt S k self.sym.n [] (handshake.take (33 + tagSize)) 33).toOption.isSome

end SessionResponder

theorem decryptBlock_of_not_opens {S : Suite} {s : SymmetricState} {ciphertext : Bytes} {n : ℕ}
    (h : ∀ k ∈ s.k, (aeadDecrypt S k s.n [] ciphertext n).toOption = none) :
    ∃ e, (SymmetricState.decryptBlock S ciphertext n).run s = .error e s := by
  rw [SymmetricState.decryptBlock, SymmetricState.decryptAndHash]
  cases hk : s.k with
  | none => exact ⟨.panic, by simp [hk, EStateM.unwrap]⟩
  | some k =>
      cases hopen : aeadDecrypt S k s.n [] ciphertext n with
      | ok plain =>
          have hnone := h k hk
          rw [hopen] at hnone
          cases hnone
      | error e => exact ⟨.err e, by simp [hk, hopen]⟩

namespace SessionResponder

theorem not_opens_of_staticOpens {S : Suite} {self : SessionResponder} {handshake : Bytes}
    (h : self.staticOpens S handshake = false) :
    ∀ k ∈ self.sym.k,
      (aeadDecrypt S k self.sym.n [] (handshake.take (33 + tagSize)) 33).toOption = none := by
  intro k hk
  rw [staticOpens, hk] at h
  dsimp only at h
  rw [← Option.not_isSome_iff_eq_none, h]
  exact Bool.false_ne_true

theorem take_splitMsg3Noise (handshake : Bytes) :
    (splitMsg3Noise handshake).1.take (33 + tagSize) = handshake.take (33 + tagSize) := by
  rw [splitMsg3Noise, splitHandshakeNoise]
  split
  · rw [List.take_take]
    rfl
  · rfl

theorem readMsg3_of_not_opens {S : Suite} {self : SessionResponder} {handshake : Bytes}
    (hstatic : self.staticOpens S handshake = false) :
    ∃ e, (readMsg3 S handshake).run self = .error e self := by
  have hnot := not_opens_of_staticOpens hstatic
  cases self with
  | xk r =>
      obtain ⟨e, hread⟩ : ∃ e, (NoiseXkResponder.readMessage3 S handshake).run r = .error e r := by
        rw [NoiseXkResponder.readMessage3]
        split
        · exact ⟨_, rfl⟩
        · obtain ⟨e, hrun⟩ := decryptBlock_of_not_opens hnot
          refine ⟨e, EStateM.run_bind_error ?_⟩
          rw [NoiseXkResponder.onSym, EStateM.zoom_run, show r.sym = (xk r).sym from rfl, hrun]
          rfl
      refine ⟨e, ?_⟩
      change ((NoiseXkResponder.readMessage3 S handshake >>= _).run r).mapState xk = _
      rw [EStateM.run_bind_error hread]
      rfl
  | xx r =>
      obtain ⟨e, hread⟩ : ∃ e, (NoiseXxResponder.readMessage3 S
          (splitMsg3Noise handshake).1).run r =
          .error e r := by
        rw [NoiseXxResponder.readMessage3]
        split
        · exact ⟨_, rfl⟩
        · rw [take_splitMsg3Noise]
          obtain ⟨e, hrun⟩ := decryptBlock_of_not_opens hnot
          refine ⟨e, EStateM.run_bind_error ?_⟩
          rw [NoiseXxResponder.onSym, EStateM.zoom_run, show r.sym = (xx r).sym from rfl, hrun]
          rfl
      refine ⟨e, ?_⟩
      change ((NoiseXxResponder.readMessage3 S (splitMsg3Noise handshake).1 >>= _).run r).mapState
        xx = _
      rw [EStateM.run_bind_error hread]
      rfl

end SessionResponder

namespace FspSession

/-- The session waits for a msg3, and the static key in this one opens under its handshake. -/
def opensStatic (S : Suite) (self : FspSession) (msg3Data : Bytes) : Bool :=
  match self.state, self.responder, parseSessionMsg3 msg3Data with
  | .awaitingMsg3, some r, .ok handshake => r.staticOpens S handshake
  | _, _, _ => false

variable {s : FspSession}

theorem handleMsg3_of_not_opens {S : Suite} {build : Build} {t : FspSession} {msg3Data : Bytes}
    {e : Fault FspSessionError} (hstatic : s.opensStatic S msg3Data = false)
    (h : (handleMsg3 S build msg3Data).run s = .error e t) : t = s := by
  rw [handleMsg3, EStateM.run_get_bind] at h
  split at h
  · cases h
    rfl
  · rename_i hstate
    split at h
    · cases h
      rfl
    · rename_i handshake hparse
      split at h
      · split at h
        · cases h
          rfl
        · rename_i r hr
          have hopens : r.staticOpens S handshake = false := by
            rw [opensStatic, hr, not_not.mp hstate] at hstatic
            cases hdata : parseSessionMsg3 msg3Data with
            | error e => rw [hdata] at hparse; cases hparse
            | ok handshake' =>
                rw [hdata] at hparse hstatic
                obtain rfl := Except.ok.inj hparse
                exact hstatic
          obtain ⟨e', hread⟩ := SessionResponder.readMsg3_of_not_opens hopens
          rw [hread] at h
          cases h
          rw [← hr]
      · cases h
        rfl

/-- A rejected msg3 leaves the state, the keys and the counter of the session. -/
theorem handleMsg3_rejected {S : Suite} {build : Build} {t : FspSession} {msg3Data : Bytes}
    {e : Fault FspSessionError} (h : (handleMsg3 S build msg3Data).run s = .error e t) :
    t.state = s.state ∧ t.sessionKeys = s.sessionKeys ∧ t.sendCounter = s.sendCounter := by
  have hcases := handleMsg3_cases S build msg3Data s
  rw [h] at hcases
  obtain rfl | ⟨-, r, -, rfl⟩ := hcases
  · exact ⟨rfl, rfl, rfl⟩
  · exact ⟨rfl, rfl, rfl⟩

/-- A setup for a session that is not idle is handled by a session that was reset. -/
theorem handleSetupAgain_run (S : Suite) (build : Build) (secret ephemeral : Block 32)
    (epoch : Block 8) (fspData : Bytes) (ackLen : ℕ) (hstate : s.state ≠ .idle) :
    (handleSetupAgain S build secret ephemeral epoch fspData ackLen).run s =
      (handleSetup S build secret ephemeral epoch fspData ackLen).run FspSession.new := by
  have hfirst : (handleSetup S build secret ephemeral epoch fspData ackLen).run s =
      .error (.err .invalidState) s := by
    rw [handleSetup, EStateM.run_get_bind, if_pos hstate]
    rfl
  rw [EStateM.run, handleSetupAgain, hfirst]

/-- A datagram whose message has a phase other than zero has a body and a message. -/
theorem exists_of_hasPhase {phase : Phase} {payload : Bytes} (hne : phase ≠ .established)
    (h : HasPhase phase (payload.drop sessionDatagramBodySize)) :
    ¬ payload.length < sessionDatagramBodySize ∧ ∃ first rest,
      payload.drop sessionDatagramBodySize = first :: rest ∧ first &&& 0x0F = phase.toUInt8 := by
  cases hdata : payload.drop sessionDatagramBodySize with
  | nil =>
      rw [hdata] at h
      cases phase with
      | established => exact absurd rfl hne
      | sessionSetup => exact absurd h (by decide)
      | sessionAck => exact absurd h (by decide)
      | sessionMsg3 => exact absurd h (by decide)
  | cons first rest =>
      rw [hdata] at h
      have hlen := congrArg List.length hdata
      rw [List.length_drop, List.length_cons] at hlen
      exact ⟨by omega, first, rest, rfl, h⟩

theorem handleFspDatagram_msg3 (S : Suite) (build : Build) (secret ephemeral : Block 32)
    (epoch : Block 8) {payload : Bytes} (respLen : ℕ) (s : FspSession)
    (hmsg3 : HasPhase .sessionMsg3 (payload.drop sessionDatagramBodySize)) :
    (handleFspDatagram S build secret ephemeral epoch payload respLen).run s =
      match (handleMsg3 S build (payload.drop sessionDatagramBodySize)).run s with
      | .ok _ t => .ok .none t
      | .error e t => .error (e.map .msg3) t := by
  obtain ⟨hlen, first, rest, hdata, hphase⟩ := exists_of_hasPhase (by decide) hmsg3
  rw [handleFspDatagram, if_neg hlen, hdata]
  dsimp only
  rw [if_neg (by rw [hphase]; decide), if_pos hphase, EStateM.run_bind, EStateM.mapFault_run]
  cases (handleMsg3 S build (first :: rest)).run s with
  | ok a t => rfl
  | error e t => rfl

theorem handleFspDatagram_setup (S : Suite) (build : Build) (secret ephemeral : Block 32)
    (epoch : Block 8) {payload : Bytes} (respLen : ℕ) (hstate : s.state ≠ .idle)
    (hsetup : HasPhase .sessionSetup (payload.drop sessionDatagramBodySize)) :
    ((handleFspDatagram S build secret ephemeral epoch payload respLen).run s).state =
      ((handleSetup S build secret ephemeral epoch (payload.drop sessionDatagramBodySize) 512).run
        FspSession.new).state := by
  obtain ⟨hlen, first, rest, hdata, hphase⟩ := exists_of_hasPhase (by decide) hsetup
  rw [handleFspDatagram, if_neg hlen, hdata]
  dsimp only
  rw [if_pos hphase, EStateM.run_bind, EStateM.mapFault_run,
    handleSetupAgain_run S build secret ephemeral epoch (first :: rest) 512 hstate]
  cases (handleSetup S build secret ephemeral epoch (first :: rest) 512).run FspSession.new with
  | error e t => rfl
  | ok ack t =>
      dsimp only
      split
      · rfl
      · rfl

/-- A setup, accepted or not, that comes while the session is not idle: the keys are gone, and the
counter starts again. -/
theorem setup_loses_keys (S : Suite) (build : Build) (secret ephemeral : Block 32) (epoch : Block 8)
    {payload : Bytes} (respLen : ℕ) (hstate : s.state ≠ .idle)
    (hsetup : HasPhase .sessionSetup (payload.drop sessionDatagramBodySize)) :
    let t := ((handleFspDatagram S build secret ephemeral epoch payload respLen).run s).state
    t.sessionKeys = none ∧ t.sendCounter = 0 := by
  intro t
  have ht : t = _ := handleFspDatagram_setup S build secret ephemeral epoch respLen hstate hsetup
  obtain h | ⟨-, r, -, h⟩ := handleSetup_cases S build secret ephemeral epoch
    (payload.drop sessionDatagramBodySize) 512 FspSession.new
  · rw [ht, h]
    exact ⟨rfl, rfl⟩
  · rw [ht, h]
    exact ⟨rfl, rfl⟩

namespace Scenario

/-- The payload of a datagram of `FspDualHandler.Scenario`. -/
def payload : FspDualHandler.Input → Bytes
  | .message _ _ payload _ => payload
  | _ => []

/-- The payloads of a session: its setup, its msg3 and a data message. -/
def setup : Bytes := payload (((FspDualHandler.Scenario.session .ik 2).getD []).getD 0 (.tick 0 0))

def msg3 : Bytes := payload (((FspDualHandler.Scenario.session .ik 2).getD []).getD 1 (.tick 0 0))

def garbledMsg3 : Bytes := msg3.dropLast ++ [msg3.getLastD 0 + 1]

def forgedMsg3 : Bytes := msg3.set 50 (msg3.getD 50 0 + 1)

def cutSetup : Bytes := setup.take (sessionDatagramBodySize + 1)

def handle (payload : Bytes) : EStateM (Fault FspHandlerError) FspSession FspHandlerResult :=
  handleFspDatagram Additive.suite .ik (Additive.keypair 3).secret (Additive.keypair 4).secret
    (Block.replicate 8 6) payload 512

def waiting : FspSession := ((handle setup).run FspSession.new).state

def established : FspSession := ((handle msg3).run waiting).state

end Scenario

end FspSession

end Session
end Microfips

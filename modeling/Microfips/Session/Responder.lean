import Microfips.Noise.XK
import Microfips.Session.Codec
import Microfips.Wire.Negotiation

/-!
# The responder of a session

`FspSession` of `microfips-core`, file `fsp.rs`.  A setup is answered from local state that is
stored only when the answer has been built, while `read_message3` works on the stored
handshake and leaves its changes there when it fails.
-/

namespace Microfips
namespace Session

open Noise Wire

def nodeAddr (S : Suite) (x : Bytes) : Block 16 :=
  Block.ofBytes 16 (S.sha256 x).bytes

def xOnly (pubkey : Block 33) : Bytes :=
  (parityNormalize pubkey).bytes.drop 1

inductive FspSessionState where
  | idle
  | awaitingMsg3
  | established
  deriving DecidableEq

inductive FspSessionError where
  | invalidState
  | invalidMessage
  | cryptoError
  | bufferTooSmall
  deriving DecidableEq

namespace FspSessionError

def ofFsp : FspError → FspSessionError
  | .bufferTooSmall => .bufferTooSmall
  | .invalidFrame => .invalidMessage
  | .invalidCoords => .invalidMessage

def ofNoise : NoiseError → FspSessionError
  | .bufferTooSmall => .bufferTooSmall
  | .invalidMessage => .invalidMessage
  | .invalidState => .invalidMessage
  | _ => .cryptoError

end FspSessionError

inductive SessionResponder where
  | xk (r : NoiseXkResponder)
  | xx (r : NoiseXxResponder)
  deriving DecidableEq

namespace SessionResponder

def finalize (S : Suite) : SessionResponder → Block 32 × Block 32
  | xk r => r.finalize S
  | xx r => r.finalize S

/-- The reads of `handle_msg3`: the initiator's static key.  On the XX wire a negotiation
block behind the message is opened and discarded. -/
def readMsg3 (S : Suite) (handshake : Bytes) :
    EStateM (Fault NoiseError) SessionResponder (Block 33) := fun self =>
  match self with
  | xk r =>
      (do
        let (static, _) ← NoiseXkResponder.readMessage3 S handshake
        return static : EStateM (Fault NoiseError) NoiseXkResponder (Block 33)).run r |>.mapState xk
  | xx r =>
      (do
        let (static, _) ← NoiseXxResponder.readMessage3 S (splitMsg3Noise handshake).1
        match (splitMsg3Noise handshake).2 with
        | none => return static
        | some enc =>
            EStateM.ignore (NoiseXxResponder.decryptPayload S enc negotiationMaxSize)
            return static : EStateM (Fault NoiseError) NoiseXxResponder (Block 33)).run r
        |>.mapState xx

end SessionResponder

structure FspSession where
  state : FspSessionState
  responder : Option SessionResponder
  kRecv : Option (Block 32)
  kSend : Option (Block 32)
  initiatorPub : Option (Block 33)
  sendCounter : UInt64
  deriving DecidableEq

namespace FspSession

def new : FspSession where
  state := .idle
  responder := none
  kRecv := none
  kSend := none
  initiatorPub := none
  sendCounter := 0

def sessionKeys (self : FspSession) : Option (Block 32 × Block 32) :=
  match self.kRecv, self.kSend with
  | some kRecv, some kSend => some (kRecv, kSend)
  | _, _ => none

/-- The answer to a setup whose handshake bytes are `handshake` and whose first source
coordinate is `setupSrc`: the ack and the handshake that waits for msg3. -/
def answerSetup (S : Suite) (build : Build) (mySecret myEphemeral : Block 32) (myEpoch : Block 8)
    (setupSrc : Block 16) (handshake : Bytes) (ackLen : ℕ) :
    Except (Fault FspSessionError) (Bytes × SessionResponder) := do
  if handshake.length ≠ 33 then
    throw (.err .invalidMessage)
  else
    let noise {α : Type} (x : Except (Fault NoiseError) α) : Except (Fault FspSessionError) α :=
      x.mapError (Fault.map .ofNoise)
    let eiPub := Block.ofBytes 33 handshake
    match build with
    | .ik =>
        let r ← noise (Fault.lift (NoiseXkResponder.new S mySecret eiPub))
        let (msg2, r) ← noise ((NoiseXkResponder.writeMessage2 S myEphemeral myEpoch 128).call r)
        let myPub ← noise (Fault.lift (ecdhPubkey S mySecret))
        let ack ← (Fault.lift (buildSessionAck [nodeAddr S (xOnly myPub)]
          [nodeAddr S (eiPub.bytes.drop 1)] msg2 ackLen)).mapError (Fault.map .ofFsp)
        return (ack, .xk r)
    | .xx =>
        let msg2Buf := xxHandshakeMsg2Size + negotiationMaxSize + tagSize
        let r ← noise (Fault.lift (NoiseXxResponder.new S mySecret))
        let (_, r) ← noise ((NoiseXxResponder.readMessage1 S handshake).call r)
        let (msg2, r) ←
          noise ((NoiseXxResponder.writeMessage2 S myEphemeral myEpoch msg2Buf).call r)
        let myPub ← noise (Fault.lift (ecdhPubkey S mySecret))
        match encodePayload negotiationMaxSize 0 0 0 with
        | none => throw (.err .bufferTooSmall)
        | some neg =>
            let (enc, r) ←
              noise ((NoiseXxResponder.encryptPayload S neg (msg2Buf - msg2.length)).call r)
            let ack ← (Fault.lift (buildSessionAck [nodeAddr S (xOnly myPub)] [setupSrc]
              (msg2 ++ enc) ackLen)).mapError (Fault.map .ofFsp)
            return (ack, .xx r)

def handleSetup (S : Suite) (build : Build) (mySecret myEphemeral : Block 32) (myEpoch : Block 8)
    (setupData : Bytes) (ackLen : ℕ) : EStateM (Fault FspSessionError) FspSession Bytes := do
  let self ← get
  if self.state ≠ .idle then
    throw (.err .invalidState)
  else
    match (parseSessionSetupFull setupData).mapError (Fault.map .ofFsp) with
    | .error e => throw e
    | .ok (_, setupSrc, handshake) =>
        match answerSetup S build mySecret myEphemeral myEpoch setupSrc handshake ackLen with
        | .error e => throw e
        | .ok (ack, responder) =>
            set { self with responder := some responder, state := .awaitingMsg3 }
            return ack

/-- The length that `handle_msg3` asks of the handshake bytes. -/
def msg3LengthOk : Build → Bytes → Bool
  | .ik, handshake => handshake.length = 73
  | .xx, handshake => xxHandshakeMsg3Size ≤ handshake.length

def handleMsg3 (S : Suite) (build : Build) (msg3Data : Bytes) :
    EStateM (Fault FspSessionError) FspSession PUnit := do
  let self ← get
  if self.state ≠ .awaitingMsg3 then
    throw (.err .invalidState)
  else
    match (parseSessionMsg3 msg3Data).mapError (Fault.map .ofFsp) with
    | .error e => throw e
    | .ok handshake =>
        if msg3LengthOk build handshake then
          match self.responder with
          | none => throw (.err .invalidState)
          | some responder =>
              match (SessionResponder.readMsg3 S handshake).run responder with
              | .error e responder =>
                  set { self with responder := some responder }
                  throw (e.map .ofNoise)
              | .ok static responder =>
                  set {
                    state := .established
                    responder := none
                    kRecv := some (responder.finalize S).1
                    kSend := some (responder.finalize S).2
                    initiatorPub := some static
                    sendCounter := self.sendCounter : FspSession }
        else
          throw (.err .invalidMessage)

end FspSession
end Session
end Microfips

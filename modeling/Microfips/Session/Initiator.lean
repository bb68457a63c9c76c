import Microfips.Session.Responder

/-!
# The initiator of a session

`FspInitiatorSession` of `microfips-core`, file `fsp.rs`.  Every method works on the stored
handshake and leaves its changes there when it fails.
-/

namespace Microfips
namespace Session

open Noise Wire

inductive FspInitiatorState where
  | idle
  | awaitingAck
  | awaitingEstablished
  | established
  deriving DecidableEq

inductive FspInitiatorError where
  | invalidState
  | invalidMessage
  | peerKeyMismatch
  | decryptFailed
  | bufferTooSmall
  | noise (e : NoiseError)
  deriving DecidableEq

namespace FspInitiatorError

def ofFsp : FspError → FspInitiatorError
  | .bufferTooSmall => .bufferTooSmall
  | .invalidFrame => .invalidMessage
  | .invalidCoords => .invalidMessage

end FspInitiatorError

inductive SessionInitiator where
  | xk (i : NoiseXkInitiator)
  | xx (i : NoiseXxInitiator)
  deriving DecidableEq

namespace SessionInitiator

def new (S : Suite) (build : Build) (myEphemeralSecret myStaticSecret : Block 32)
    (responderStaticPub : Block 33) : Except NoiseError SessionInitiator :=
  match build with
  | .ik => do
      let (i, _) ← NoiseXkInitiator.new S myEphemeralSecret myStaticSecret responderStaticPub
      return .xk i
  | .xx => do
      let (i, _) ← NoiseXxInitiator.new S myEphemeralSecret myStaticSecret
      return .xx i

def finalize (S : Suite) : SessionInitiator → Block 32 × Block 32
  | xk i => i.finalize S
  | xx i => i.finalize S

def writeMsg1 (S : Suite) (outLen : ℕ) : EStateM (Fault NoiseError) SessionInitiator Bytes :=
  fun self =>
    match self with
    | xk i => ((NoiseXkInitiator.writeMessage1 S outLen).run i).mapState xk
    | xx i => ((NoiseXxInitiator.writeMessage1 S outLen).run i).mapState xx

/-- The reads of `handle_ack`.  On the XX wire the static key of the ack is compared with the
pinned one, and a negotiation block behind it is opened and discarded. -/
def readMsg2 (S : Suite) (pinnedResponderPub : Block 33) (handshake : Bytes) :
    EStateM (Fault FspInitiatorError) SessionInitiator PUnit := fun self =>
  match self with
  | xk i =>
      match (NoiseXkInitiator.readMessage2 S handshake).run i with
      | .error e i => .error (e.map .noise) (xk i)
      | .ok _ i => .ok ⟨⟩ (xk i)
  | xx i =>
      match (NoiseXxInitiator.readMessage2 S (splitMsg2Noise handshake).1).run i with
      | .error e i => .error (e.map .noise) (xx i)
      | .ok (respPub, _) i =>
          if respPub.bytes.drop 1 ≠ pinnedResponderPub.bytes.drop 1 then
            .error (.err .peerKeyMismatch) (xx i)
          else
            match (splitMsg2Noise handshake).2 with
            | none => .ok ⟨⟩ (xx i)
            | some enc =>
                match (EStateM.ignore
                    (NoiseXxInitiator.decryptPayload S enc negotiationMaxSize)).run i with
                | .error e i => .error (e.map .noise) (xx i)
                | .ok _ i => .ok ⟨⟩ (xx i)

def writeMsg3 (S : Suite) (myPub : Block 33) (epoch : Block 8) :
    EStateM (Fault FspInitiatorError) SessionInitiator Bytes := fun self =>
  match self with
  | xk i =>
      match (NoiseXkInitiator.writeMessage3 S myPub epoch 128).run i with
      | .error e i => .error (e.map .noise) (xk i)
      | .ok msg3 i => .ok msg3 (xk i)
  | xx i =>
      let msg3Buf := xxHandshakeMsg3Size + negotiationMaxSize + tagSize
      match (NoiseXxInitiator.writeMessage3 S myPub epoch msg3Buf).run i with
      | .error e i => .error (e.map .noise) (xx i)
      | .ok msg3 i =>
          match encodePayload negotiationMaxSize 0 0 0 with
          | none => .error (.err .bufferTooSmall) (xx i)
          | some neg =>
              match (NoiseXxInitiator.encryptPayload S neg (msg3Buf - msg3.length)).run i with
              | .error e i => .error (e.map .noise) (xx i)
              | .ok enc i => .ok (msg3 ++ enc) (xx i)

end SessionInitiator

structure FspInitiatorSession where
  state : FspInitiatorState
  initiator : Option SessionInitiator
  kRecv : Option (Block 32)
  kSend : Option (Block 32)
  myPub : Block 33
  pinnedResponderPub : Block 33
  sendCounter : UInt64
  deriving DecidableEq

namespace FspInitiatorSession

def new (S : Suite) (build : Build) (myStaticSecret myEphemeralSecret : Block 32)
    (responderStaticPub : Block 33) : Except FspInitiatorError FspInitiatorSession := do
  let initiator ← (SessionInitiator.new S build myEphemeralSecret myStaticSecret
    responderStaticPub).mapError .noise
  let myPub ← (ecdhPubkey S myStaticSecret).mapError .noise
  return {
    state := .idle
    initiator := some initiator
    kRecv := none
    kSend := none
    myPub := myPub
    pinnedResponderPub := responderStaticPub
    sendCounter := 0 }

def sessionKeys (self : FspInitiatorSession) : Option (Block 32 × Block 32) :=
  match self.kRecv, self.kSend with
  | some kRecv, some kSend => some (kRecv, kSend)
  | _, _ => none

def onInitiator {α : Type} (m : EStateM (Fault FspInitiatorError) SessionInitiator α) :
    EStateM (Fault FspInitiatorError) FspInitiatorSession α := do
  let self ← get
  match self.initiator with
  | none => throw (.err .invalidState)
  | some initiator =>
      match m.run initiator with
      | .error e initiator =>
          set { self with initiator := some initiator }
          throw e
      | .ok a initiator =>
          set { self with initiator := some initiator }
          return a

def liftNoise {α : Type} (m : EStateM (Fault NoiseError) SessionInitiator α) :
    EStateM (Fault FspInitiatorError) SessionInitiator α := fun i =>
  match m.run i with
  | .error e i => .error (e.map .noise) i
  | .ok a i => .ok a i

def buildSetup (S : Suite) (srcAddr dstAddr : Block 16) (outLen : ℕ) :
    EStateM (Fault FspInitiatorError) FspInitiatorSession Bytes := do
  let self ← get
  if self.state ≠ .idle then
    throw (.err .invalidState)
  else
    let msg1 ← onInitiator (liftNoise (SessionInitiator.writeMsg1 S 64))
    match buildSessionSetup 0x00 [srcAddr] [dstAddr] msg1 outLen with
    | .error e => throw (.err (.ofFsp e))
    | .ok setup =>
        modify fun self => { self with state := .awaitingAck }
        return setup

def handleAck (S : Suite) (ackData : Bytes) :
    EStateM (Fault FspInitiatorError) FspInitiatorSession PUnit := do
  let self ← get
  if self.state ≠ .awaitingAck then
    throw (.err .invalidState)
  else
    match parseSessionAck ackData with
    | .error e => throw (e.map fun _ => .invalidMessage)
    | .ok handshake =>
        onInitiator (SessionInitiator.readMsg2 S self.pinnedResponderPub handshake)
        modify fun self => { self with state := .awaitingEstablished }

def buildMsg3 (S : Suite) (epoch : Block 8) (outLen : ℕ) :
    EStateM (Fault FspInitiatorError) FspInitiatorSession Bytes := do
  let self ← get
  if self.state ≠ .awaitingEstablished then
    throw (.err .invalidState)
  else
    let msg3 ← onInitiator (SessionInitiator.writeMsg3 S self.myPub epoch)
    match buildSessionMsg3 msg3 outLen with
    | .error e => throw (.err (.ofFsp e))
    | .ok packet =>
        modify fun self =>
          let keys := self.initiator.map (SessionInitiator.finalize S)
          { self with
            state := .established
            kSend := keys.map Prod.fst
            kRecv := keys.map Prod.snd }
        return packet

end FspInitiatorSession
end Session
end Microfips

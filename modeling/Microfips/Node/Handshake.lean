import Microfips.Node.Receive
import Microfips.Session.Responder

/-!
# The handshake of a session

`handshake_ik` and `handshake_xx` of `node.rs`.  Both build msg1 and wait in a loop for what the
peer does: its msg2 completes our handshake, its msg1 makes us the responder unless our address is
the lower one.  The XX responder goes on to a second loop, in which it waits for msg3.

The loops wait in `recv_frame`.  What they hold while they wait is a `Phase`, and the code between
two waits is a function of the phase and of the frame or the timeout that ends the wait.
-/

namespace Microfips
namespace Node

open Noise Wire Session

def ProtocolError.ofNoise : NoiseError → ProtocolError
  | .decryptionFailed => .decryptFailed
  | _ => .invalidMessage

/-- The fields of the node that a handshake reads or changes, with a record of its frames that
nothing reads. -/
structure Handshake (H : Type) extends RecvBuffer where
  handler : H
  peerSentFirst : Bool
  peerProfile : Option NodeProfile
  fmpVersion : Option UInt8
  peerWantsSr : Bool
  peerWantsRr : Bool
  /-- How many calls went out to the world. -/
  calls : ℕ
  /-- The frames that `send_frame` sent, newest first. -/
  sent : List Bytes
  /-- The frames that `recv_frame` returned, newest first. -/
  received : List Bytes

structure Opening where
  initiator : LinkInitiator
  myPub : Block 33
  ourIndex : SessionIndex
  msg1 : Bytes
  resendCount : ℕ
  deriving DecidableEq

structure Answering where
  responder : NoiseXxResponder
  peerSenderIdx : SessionIndex
  msg2 : Bytes
  resendCount : ℕ
  deriving DecidableEq

inductive Phase where
  | opening (o : Opening)
  | answering (a : Answering)
  deriving DecidableEq

/-- What a handshake returns: the keys to send and to receive with, and the index of the peer. -/
structure Outcome where
  ks : Block 32
  kr : Block 32
  them : SessionIndex
  deriving DecidableEq

inductive Progress where
  | waits (phase : Phase)
  | returns (outcome : Outcome)
  deriving DecidableEq

abbrev HandshakeAction (H α : Type) : Type :=
  EStateM (Fault ProtocolError) (Handshake H) α

namespace Handshake

variable {H M : Type}

def ask {α : Type} (answer : ℕ → α) : HandshakeAction H α := do
  let s ← get
  set { s with calls := s.calls + 1 }
  return answer s.calls

def okOr {α : Type} (e : ProtocolError) (x : Option α) : HandshakeAction H α :=
  match x with
  | none => throw (.err e)
  | some a => return a

def orErr {α : Type} (f : NoiseError → ProtocolError) (x : Except NoiseError α) :
    HandshakeAction H α :=
  match x with
  | .error e => throw (.err (f e))
  | .ok a => return a

def within {σ α : Type} (f : NoiseError → ProtocolError) (m : EStateM (Fault NoiseError) σ α)
    (object : σ) : HandshakeAction H (α × σ) :=
  match m.call object with
  | .ok r => return r
  | .error (.err e) => throw (.err (f e))
  | .error .panic => throw .panic

variable (C : Config H M)

def transportSend (_data : Bytes) : HandshakeAction H PUnit := do
  if ← ask C.world.sendOk then
    return ⟨⟩
  else
    throw (.err .disconnected)

def sendParts (payload : Bytes) : HandshakeAction H PUnit :=
  if C.rawFraming then
    transportSend C payload
  else do
    transportSend C (Bytes.ofNat 2 payload.length)
    transportSend C payload

def sendFrame (payload : Bytes) : HandshakeAction H PUnit := do
  sendParts C payload
  modify fun s => { s with sent := payload :: s.sent }

def onEvent (event : NodeEvent) : HandshakeAction H PUnit := do
  let t ← ask C.world.clock
  modify fun s => { s with handler := C.handler.onEvent t event s.handler }

def ourNegotiation : NegotiationHeader where
  versionMin := Wire.fmpVersion C.build
  versionMax := Wire.fmpVersion C.build
  features := fmpFeatures C.ourProfile

def applyFmpNegotiation (negBytes : Bytes) : HandshakeAction H PUnit :=
  match NegotiationHeader.parse negBytes with
  | .error _ => throw (.err .invalidMessage)
  | .ok theirs =>
      match (ourNegotiation C).agreeVersion theirs, theirs.nodeProfile with
      | .error _, _ => throw (.err .invalidMessage)
      | .ok _, none => throw (.err .invalidMessage)
      | .ok version, some theirProfile =>
          if NodeProfile.validPairing C.ourProfile theirProfile then
            modify fun s =>
              { s with
                fmpVersion := some version
                peerProfile := some theirProfile
                peerWantsSr := theirs.features &&& fmpFeatWantsSr ≠ 0
                peerWantsRr := theirs.features &&& fmpFeatWantsRr ≠ 0 }
          else
            throw (.err .invalidMessage)

/-- Open the negotiation payload behind a handshake message, if there is one, and apply it: the
object that opened it. -/
def readNegotiation {σ : Type} (e : ProtocolError)
    (decrypt : Bytes → EStateM (Fault NoiseError) σ Bytes) (encrypted : Option Bytes)
    (object : σ) : HandshakeAction H σ :=
  match encrypted with
  | none => return object
  | some encrypted => do
      let r ← within (fun _ => e) (decrypt encrypted) object
      applyFmpNegotiation C r.1
      return r.2

def encodeNegotiation : Option Bytes :=
  encodePayload negotiationMaxSize (Wire.fmpVersion C.build) (Wire.fmpVersion C.build)
    (fmpFeatures C.ourProfile)

def myAddr (myPub : Block 33) : Block 16 :=
  nodeAddr C.suite (myPub.bytes.drop 1)

def peerAddr : Block 16 :=
  nodeAddr C.suite (C.peerNpub.bytes.drop 1)

def newInitiator (myPub : Block 33) (eph : Block 32) : HandshakeAction H (Bytes × LinkInitiator) :=
  match C.build with
  | .ik => do
      let i ← orErr .ofNoise (NoiseIkInitiator.new C.suite eph C.nsec C.peerNpub)
      let r ← within .ofNoise (NoiseIkInitiator.writeMessage1 C.suite myPub C.epoch 256) i.1
      return (r.1, .ik r.2)
  | .xx => do
      let i ← orErr .ofNoise (NoiseXxInitiator.new C.suite eph C.nsec)
      let r ← within .ofNoise (NoiseXxInitiator.writeMessage1 C.suite 256) i.1
      return (r.1, .xx r.2)

def begin : HandshakeAction H Phase := do
  let myPub ← orErr .ofNoise (ecdhPubkey C.suite C.nsec)
  let eph ← ask C.world.ephemeral
  let r ← newInitiator C myPub eph
  let ourIndex ← ask C.world.index
  let msg1 ← okOr .invalidFrame (buildMsg1 C.build ourIndex r.1 256)
  let s ← get
  if s.peerSentFirst then
    return .opening { initiator := r.2, myPub, ourIndex, msg1, resendCount := 0 }
  else
    sendFrame C msg1
    onEvent C .msg1Sent
    return .opening { initiator := r.2, myPub, ourIndex, msg1, resendCount := 0 }

def completeIk (hs : NoiseIkInitiator) (senderIdx : SessionIndex) (noisePayload : Bytes) :
    HandshakeAction H Outcome := do
  let r ← within (fun _ => .decryptFailed) (NoiseIkInitiator.readMessage2 C.suite noisePayload) hs
  let keys := r.2.finalize C.suite
  return { ks := keys.1, kr := keys.2, them := senderIdx }

/-- The length of the buffers for msg3 and for msg2 of the XX build, with their negotiation
payload. -/
def withNegotiation (size : ℕ) : ℕ := size + negotiationMaxSize + tagSize

def sendMsg3 (o : Opening) (hs : NoiseXxInitiator) (senderIdx : SessionIndex) :
    HandshakeAction H NoiseXxInitiator := do
  let n3 ← within (fun _ => .decryptFailed) (NoiseXxInitiator.writeMessage3 C.suite o.myPub C.epoch
    (withNegotiation xxHandshakeMsg3Size)) hs
  let neg ← okOr .invalidFrame (encodeNegotiation C)
  let sealedNeg ← within (fun _ => .decryptFailed) (NoiseXxInitiator.encryptPayload C.suite neg
    (withNegotiation xxHandshakeMsg3Size - n3.1.length)) n3.2
  let msg3 ← okOr .invalidFrame
    (buildMsg3 C.build o.ourIndex senderIdx (n3.1 ++ sealedNeg.1) 512)
  sendFrame C msg3
  return sealedNeg.2

def completeXx (o : Opening) (hs : NoiseXxInitiator) (senderIdx : SessionIndex)
    (noisePayload : Bytes) : HandshakeAction H Outcome := do
  let parts := splitMsg2Noise noisePayload
  let r ← within (fun _ => .decryptFailed) (NoiseXxInitiator.readMessage2 C.suite parts.1) hs
  if SameX r.1.1 C.peerNpub then
    let hs ← readNegotiation C .decryptFailed
      (NoiseXxInitiator.decryptPayload C.suite · negotiationMaxSize) parts.2 r.2
    let hs ← sendMsg3 C o hs senderIdx
    let keys := hs.finalize C.suite
    return { ks := keys.1, kr := keys.2, them := senderIdx }
  else
    throw (.err .peerKeyMismatch)

def complete (o : Opening) (senderIdx : SessionIndex) (noisePayload : Bytes) :
    HandshakeAction H Outcome :=
  match o.initiator with
  | .ik hs => completeIk C hs senderIdx noisePayload
  | .xx hs => completeXx C o hs senderIdx noisePayload

/-- The answer to msg1 in `handshake_ik`.  The ephemeral key of the initiator is sliced off before
the length of the payload is known. -/
def answerIk (peerSenderIdx : SessionIndex) (noisePayload : Bytes) :
    HandshakeAction H Outcome := do
  if noisePayload.length < 33 then
    throw .panic
  else
    let responder ← orErr (fun _ => .invalidMessage)
      (NoiseIkResponder.new C.suite C.nsec (Block.ofBytes 33 (noisePayload.take 33)))
    let r ← within (fun _ => .invalidMessage)
      (NoiseIkResponder.readMessage1 C.suite (noisePayload.drop 33)) responder
    if SameX r.1.1 C.peerNpub then
      -- drawn until it is not the ephemeral secret of our own msg1
      let respEph ← ask C.world.ephemeral
      let n2 ← within (fun _ => .decryptFailed)
        (NoiseIkResponder.writeMessage2 C.suite respEph C.epoch 128) r.2
      let respIndex ← ask C.world.index
      let msg2 ← okOr .invalidMessage (buildMsg2 C.build respIndex peerSenderIdx n2.1 256)
      sendFrame C msg2
      let keys := n2.2.finalize C.suite
      return { ks := keys.2, kr := keys.1, them := peerSenderIdx }
    else
      throw (.err .invalidMessage)

def writeMsg2 (responder : NoiseXxResponder) (respEph : Block 32) :
    HandshakeAction H (Bytes × NoiseXxResponder) := do
  let n2 ← within (fun _ => .decryptFailed) (NoiseXxResponder.writeMessage2 C.suite respEph C.epoch
    (withNegotiation xxHandshakeMsg2Size)) responder
  let neg ← okOr .invalidMessage (encodeNegotiation C)
  let sealedNeg ← within (fun _ => .decryptFailed) (NoiseXxResponder.encryptPayload C.suite neg
    (withNegotiation xxHandshakeMsg2Size - n2.1.length)) n2.2
  return (n2.1 ++ sealedNeg.1, sealedNeg.2)

def answerXx (peerSenderIdx : SessionIndex) (noisePayload : Bytes) :
    HandshakeAction H Answering := do
  let responder ← orErr (fun _ => .invalidMessage) (NoiseXxResponder.new C.suite C.nsec)
  let r ← within (fun _ => .invalidMessage)
    (NoiseXxResponder.readMessage1 C.suite noisePayload) responder
  -- drawn until it is not the ephemeral secret of our own msg1
  let respEph ← ask C.world.ephemeral
  let n2 ← writeMsg2 C r.2 respEph
  let respIndex ← ask C.world.index
  let msg2 ← okOr .invalidMessage (buildMsg2 C.build respIndex peerSenderIdx n2.1 512)
  sendFrame C msg2
  return { responder := n2.2, peerSenderIdx, msg2, resendCount := 0 }

def answer (peerSenderIdx : SessionIndex) (noisePayload : Bytes) : HandshakeAction H Progress :=
  match C.build with
  | .ik => do return .returns (← answerIk C peerSenderIdx noisePayload)
  | .xx => do return .waits (.answering (← answerXx C peerSenderIdx noisePayload))

/-- The Msg1 branch.  Of two nodes that both sent msg1 the one with the lower address stays the
initiator. -/
def onMsg1 (o : Opening) (peerSenderIdx : SessionIndex) (noisePayload : Bytes) :
    HandshakeAction H Progress := do
  let s ← get
  if myAddr C o.myPub = peerAddr C then
    throw (.err .invalidMessage)
  else if s.peerSentFirst = false ∧ (myAddr C o.myPub).bytes < (peerAddr C).bytes then
    return .waits (.opening o)
  else
    answer C peerSenderIdx noisePayload

def onFrameOpening (o : Opening) (frame : Bytes) : HandshakeAction H Progress :=
  match parseMessage C.build frame with
  | none => throw (.err .invalidMessage)
  | some (.msg2 senderIdx _ noisePayload) => do
      return .returns (← complete C o senderIdx noisePayload)
  | some (.msg1 peerSenderIdx noisePayload) => onMsg1 C o peerSenderIdx noisePayload
  | some _ => return .waits (.opening o)

def acceptMsg3 (a : Answering) (noisePayload : Bytes) : HandshakeAction H Outcome := do
  let parts := splitMsg3Noise noisePayload
  let r ← within (fun _ => .invalidMessage)
    (NoiseXxResponder.readMessage3 C.suite parts.1) a.responder
  let responder ← readNegotiation C .invalidMessage
    (NoiseXxResponder.decryptPayload C.suite · negotiationMaxSize) parts.2 r.2
  if SameX r.1.1 C.peerNpub then
    let keys := responder.finalize C.suite
    return { ks := keys.2, kr := keys.1, them := a.peerSenderIdx }
  else
    throw (.err .invalidMessage)

def onFrameAnswering (a : Answering) (frame : Bytes) : HandshakeAction H Progress :=
  match parseMessage C.build frame with
  | none => throw (.err .invalidMessage)
  | some (.msg3 _ _ noisePayload) => do return .returns (← acceptMsg3 C a noisePayload)
  | some _ => return .waits (.answering a)

def onFrame (phase : Phase) (frame : Bytes) : HandshakeAction H Progress :=
  match phase with
  | .opening o => onFrameOpening C { o with resendCount := 0 } frame
  | .answering a => onFrameAnswering C a frame

def onTimeoutOpening (o : Opening) : HandshakeAction H Opening := do
  let s ← get
  if C.timing.handshakeMaxResends < o.resendCount + 1 then
    throw (.err .timeout)
  else if s.peerSentFirst then
    return { o with resendCount := o.resendCount + 1 }
  else
    sendFrame C o.msg1
    return { o with resendCount := o.resendCount + 1 }

def onTimeoutAnswering (a : Answering) : HandshakeAction H Answering := do
  if C.timing.handshakeMaxResends < a.resendCount + 1 then
    throw (.err .timeout)
  else
    sendFrame C a.msg2
    return { a with resendCount := a.resendCount + 1 }

def onTimeout (phase : Phase) : HandshakeAction H Phase :=
  match phase with
  | .opening o => do return .opening (← onTimeoutOpening C o)
  | .answering a => do return .answering (← onTimeoutAnswering C a)

end Handshake
end Node
end Microfips

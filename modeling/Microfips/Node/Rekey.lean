import Microfips.Node.State

/-!
# Rekeying in a steady session

The rekey half of `steady`: starting a rekey of our own, answering one of the peer, and the
branches of the receive loop for the three handshake messages.
-/

namespace Microfips
namespace Node
namespace Steady

open Noise Wire

variable {H M : Type} (C : Config H M)

def sendRekeyMsg1 (n1 : Bytes) (hs : LinkInitiator) : Action H M (Option RekeyInit) := do
  let ourIndex ← ask C.world.index
  match buildMsg1 C.build ourIndex n1 256 with
  | none => return none
  | some msg1 =>
      if ← sendFrame C msg1 then
        let t ← now C
        return some {
          hs
          ourIndex
          msg1
          resends := 0
          nextResendAt := t + fromMillis C.timing.handshakeResendIntervalMs }
      else
        return none

def initiateRekey : Action H M (Option RekeyInit) := do
  match C.build with
  | .ik =>
      match ecdhPubkey C.suite C.nsec with
      | .error _ => return none
      | .ok myPub =>
          let eph ← ask C.world.ephemeral
          match NoiseIkInitiator.new C.suite eph C.nsec C.peerNpub with
          | .error _ => return none
          | .ok (hs, _) =>
              match ← attempt (NoiseIkInitiator.writeMessage1 C.suite myPub C.epoch 256) hs with
              | none => return none
              | some (n1, hs) => sendRekeyMsg1 C n1 (.ik hs)
  | .xx =>
      let eph ← ask C.world.ephemeral
      match NoiseXxInitiator.new C.suite eph C.nsec with
      | .error _ => return none
      | .ok (hs, _) =>
          match ← attempt (NoiseXxInitiator.writeMessage1 C.suite 256) hs with
          | none => return none
          | some (n1, hs) => sendRekeyMsg1 C n1 (.xx hs)

def answerRekeyMsg1Ik (peerSenderIdx : SessionIndex) (noisePayload : Bytes) (curKBit : Bool) :
    Action H M (Option (EpochSlot × Bytes)) := do
  if noisePayload.length < 33 then
    return none
  else
    match NoiseIkResponder.new C.suite C.nsec (Block.ofBytes 33 (noisePayload.take 33)) with
    | .error _ => return none
    | .ok responder =>
        match ← attempt (NoiseIkResponder.readMessage1 C.suite (noisePayload.drop 33))
            responder with
        | none => return none
        | some ((initPub, _), responder) =>
            if SameX initPub C.peerNpub then
              let respEph ← ask C.world.ephemeral
              match ← attempt (NoiseIkResponder.writeMessage2 C.suite respEph C.epoch 128)
                responder with
              | none => return none
              | some (msg2Noise, responder) =>
                  let respIndex ← ask C.world.index
                  match buildMsg2 C.build respIndex peerSenderIdx msg2Noise 256 with
                  | none => return none
                  | some msg2 =>
                      let keys := responder.finalize C.suite
                      return some (EpochSlot.new keys.2 keys.1 peerSenderIdx (!curKBit) .peer, msg2)
            else
              return none

def beginRekeyXx (peerSenderIdx : SessionIndex) (noisePayload : Bytes) :
    Action H M (Option (RekeyHs × Bytes)) := do
  if noisePayload.length ≠ xxHandshakeMsg1Size then
    return none
  else
    match NoiseXxResponder.new C.suite C.nsec with
    | .error _ => return none
    | .ok responder =>
        match ← attempt (NoiseXxResponder.readMessage1 C.suite noisePayload) responder with
        | none => return none
        | some (_, responder) =>
            let respEph ← ask C.world.ephemeral
            match ← attempt (NoiseXxResponder.writeMessage2 C.suite respEph C.epoch 128)
              responder with
            | none => return none
            | some (msg2Noise, responder) =>
                let respIndex ← ask C.world.index
                match buildMsg2 C.build respIndex peerSenderIdx msg2Noise 256 with
                | none => return none
                | some msg2 =>
                    return some ({ responder, ourIndex := respIndex, theirIdx := peerSenderIdx },
                      msg2)

def arm (slot : EpochSlot) : Action H M PUnit := do
  let s ← get
  set { s with pend := some slot }
  emit (.armed slot.origin slot.ks slot.kr s.pendSelf)

def remember (msg1Wire msg2 : Bytes) : Action H M PUnit :=
  modify fun s => { s with lastRekeyMsg1 := some msg1Wire, lastRekeyMsg2 := some msg2 }

def answerMsg1 (senderIdx : SessionIndex) (np msg1Wire : Bytes) : Action H M Bool := do
  match C.build with
  | .ik =>
      let s ← get
      match ← answerRekeyMsg1Ik C senderIdx np s.cur.kBit with
      | none => return false
      | some (slot, msg2) =>
          let _ ← sendFrame C msg2
          arm slot
          remember msg1Wire msg2
          return true
  | .xx =>
      match ← beginRekeyXx C senderIdx np with
      | none => return false
      | some (hs, msg2) =>
          let _ ← sendFrame C msg2
          modify fun s => { s with rekeyHs := some hs }
          remember msg1Wire msg2
          return true

def freshOk : Action H M Bool := do
  let s ← get
  match s.lastFreshAnswerAt with
  | none => return true
  | some t =>
      let now ← now C
      -- duration_since panics on a clock that runs backwards
      if now < t then
        throw .panic
      else
        return fromMillis C.timing.rekeyAnswerMinIntervalMs ≤ now - t

def resendMsg2 : Action H M PUnit := do
  let s ← get
  match s.lastRekeyMsg2 with
  | none => return ⟨⟩
  | some msg2 =>
      let _ ← sendFrame C msg2
      return ⟨⟩

def notePeerRekey : Action H M PUnit := do
  let t ← now C
  modify fun s => { s with lastPeerRekeyAt := some t }
  refresh C

def handleMsg1 (frame : Bytes) (senderIdx : SessionIndex) (noisePayload : Bytes) :
    Action H M PUnit := do
  let np := noisePayload.take 128
  let msg1Wire := frame.take 128
  note (.received frame)
  let s ← get
  if s.lastRekeyMsg1 = some msg1Wire then
    resendMsg2 C
    notePeerRekey C
  else if ← freshOk C then
    let t ← now C
    modify fun s => { s with lastFreshAnswerAt := some t }
    if ← answerMsg1 C senderIdx np msg1Wire then
      notePeerRekey C
    else
      return ⟨⟩
  else
    return ⟨⟩

def handleMsg3 (frame noisePayload : Bytes) (hs : RekeyHs) : Action H M PUnit := do
  modify fun s => { s with rekeyHs := none }
  note (.received frame)
  match ← attempt (NoiseXxResponder.readMessage3 C.suite noisePayload) hs.responder with
  | none => refresh C
  | some ((initPub, _), responder) =>
      if SameX initPub C.peerNpub then
        let s ← get
        let keys := responder.finalize C.suite
        arm (EpochSlot.new keys.2 keys.1 hs.theirIdx (!s.cur.kBit) .peer)
        refresh C
      else
        refresh C

def completeIk (hs : NoiseIkInitiator) (np : Bytes) :
    Action H M (Option (Block 32 × Block 32)) := do
  match ← attempt (NoiseIkInitiator.readMessage2 C.suite np) hs with
  | none => return none
  | some (_, hs) => return some (hs.finalize C.suite)

/-- The same on the XX wire, where msg3 has to be sent.  The outer `none` is an answer that does
not come from the pinned peer. -/
def completeXx (ri : RekeyInit) (hs : NoiseXxInitiator) (senderIdx : SessionIndex) (np : Bytes) :
    Action H M (Option (Option (Block 32 × Block 32))) := do
  match ← attempt (NoiseXxInitiator.readMessage2 C.suite np) hs with
  | none => return some none
  | some ((respPub, _), hs) =>
      if SameX respPub C.peerNpub then
        match ecdhPubkey C.suite C.nsec with
        | .error _ => return some none
        | .ok myPub =>
            match ← attempt (NoiseXxInitiator.writeMessage3 C.suite myPub C.epoch 128) hs with
            | none => return some none
            | some (n3, hs) =>
                match buildMsg3 C.build ri.ourIndex senderIdx n3 256 with
                | none => return some none
                | some msg3 =>
                    if ← sendFrame C msg3 then
                      return some (some (hs.finalize C.suite))
                    else
                      return some none
      else
        return none

def complete (ri : RekeyInit) (senderIdx : SessionIndex) (np : Bytes) :
    Action H M (Option (Option (Block 32 × Block 32))) := do
  match ri.hs with
  | .ik hs =>
      let keys ← completeIk C hs np
      return some keys
  | .xx hs => completeXx C ri hs senderIdx np

def handleMsg2 (frame : Bytes) (senderIdx receiverIdx : SessionIndex) (noisePayload : Bytes)
    (ri : RekeyInit) : Action H M PUnit := do
  if receiverIdx ≠ ri.ourIndex then
    note (.received frame)
    refresh C
  else
    modify fun s => { s with rekeyInit := none }
    note (.received frame)
    match ← complete C ri senderIdx (noisePayload.take 128) with
    | none => return ⟨⟩
    | some none => refresh C
    | some (some keys) =>
        let s ← get
        arm (EpochSlot.new keys.1 keys.2 senderIdx (!s.cur.kBit) .own)
        modify fun s => { s with pendSelf := true }
        refresh C

end Steady
end Node
end Microfips

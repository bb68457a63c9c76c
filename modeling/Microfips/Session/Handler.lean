import Microfips.Node.Interface
import Microfips.Session.Initiator
import Microfips.Session.Ipv6Shim

/-!
# The session handler

`FspDualHandler` of `microfips-protocol`, file `fsp_handler.rs`: it answers incoming sessions,
opens one of its own towards a target, and hands opened data messages to the ICMPv6 responder
and the application.  The application is a parameter.

The handler carries a trace of what it did with its session keys.  The trace is not part of the
program: nothing reads it.
-/

namespace Microfips
namespace Session

open Noise Wire Node

structure PeerContext where
  linkPubkey : Block 32
  srcAddr : Option (Block 16)
  deriving DecidableEq

inductive FspAppResult where
  | none
  | reply (msgType : UInt8) (payload : Bytes)
  | disconnect
  deriving DecidableEq

/-- `FspAppHandler`: what the application does with a message, given the room for its reply. -/
structure FspAppHandler (A : Type) where
  onFspMessage : A → UInt8 → Bytes → ℕ → PeerContext → FspAppResult × A

/-- What the handler did with the keys of its responder session. -/
inductive FspEvent where
  /-- A handshake begun with the ephemeral key `eiPub` was completed. -/
  | established (eiPub : Block 33) (kRecv kSend : Block 32)
  /-- The data message `counter` reached the established session. -/
  | received (kRecv : Block 32) (counter : UInt64)
  /-- The data message `counter` was handed to the ICMPv6 responder or the application. -/
  | delivered (kRecv : Block 32) (counter : UInt64)
  /-- A counter was taken for a reply. -/
  | took (kSend : Block 32) (counter : UInt64)
  /-- A reply was sealed. -/
  | sealed (kSend : Block 32) (counter : UInt64)
  deriving DecidableEq

structure FspDualHandler (A : Type) where
  nsec : Block 32
  linkPubkey : Block 32
  fspSession : FspSession
  fspEphemeral : Block 32
  fspEpoch : Block 8
  initiator : Option FspInitiatorSession
  targetAddr : Option (Block 16)
  fspTimer : Option ℕ
  testPing : Bool
  app : A
  lastSetup : Option Bytes
  /-- The trace, newest first. -/
  trace : List FspEvent

namespace FspDualHandler

variable {A : Type}

def newResponder (nsec ephemeral : Block 32) (fspEpoch : Block 8) (app : A) :
    FspDualHandler A where
  nsec := nsec
  linkPubkey := Block.replicate 32 0
  fspSession := FspSession.new
  fspEphemeral := ephemeral
  fspEpoch := fspEpoch
  initiator := none
  targetAddr := none
  fspTimer := none
  testPing := false
  app := app
  lastSetup := none
  trace := []

def newDual (S : Suite) (build : Build) (nsec responderEphemeral initiatorEphemeral : Block 32)
    (targetPub : Block 33) (targetAddr : Block 16) (fspEpoch : Block 8) (app : A) :
    FspDualHandler A where
  nsec := nsec
  linkPubkey := Block.ofBytes 32 (targetPub.bytes.drop 1)
  fspSession := FspSession.new
  fspEphemeral := responderEphemeral
  fspEpoch := fspEpoch
  initiator := (FspInitiatorSession.new S build nsec initiatorEphemeral targetPub).toOption
  targetAddr := some targetAddr
  fspTimer := none
  testPing := false
  app := app
  lastSetup := none
  trace := []

abbrev Action (A α : Type) : Type :=
  EStateM (Fault Empty) (FspDualHandler A) α

def emit (e : FspEvent) : Action A PUnit :=
  modify fun self => { self with trace := e :: self.trace }

def onEventDefault (now : ℕ) (event : NodeEvent) : Action A PUnit :=
  match event with
  | .handshakeOk =>
      modify fun self =>
        { self with
          fspSession := FspSession.new
          fspTimer :=
            if self.initiator.isSome then some (now + fromSecs 5) else self.fspTimer }
  | .disconnected => modify fun self => { self with initiator := none, fspTimer := none }
  | .error => modify fun self => { self with initiator := none, fspTimer := none }
  | _ => pure ⟨⟩

/-- Run a method of the responder session; an error is handed back, a panic goes on. -/
def onSession {α : Type} (m : EStateM (Fault FspSessionError) FspSession α) :
    Action A (Except FspSessionError α) := fun self =>
  match m.run self.fspSession with
  | .ok a session => .ok (.ok a) { self with fspSession := session }
  | .error (.err e) session => .ok (.error e) { self with fspSession := session }
  | .error .panic session => .error .panic { self with fspSession := session }

def handleSetup (S : Suite) (build : Build) (fspData : Bytes) (ackLen : ℕ) :
    Action A (Except FspSessionError Bytes) := do
  let self ← get
  onSession (FspSession.handleSetup S build self.nsec self.fspEphemeral self.fspEpoch fspData
    ackLen)

def handleResponderSetup (S : Suite) (build : Build) (replyBody fspData : Bytes) (respLen : ℕ) :
    Action A HandleResult := do
  if respLen ≤ sessionDatagramBodySize then
    return .none
  else
    match ← handleSetup S build fspData (respLen - sessionDatagramBodySize) with
    | .ok ack => return .sendDatagram (replyBody ++ ack)
    | .error .invalidState =>
        modify fun self => { self with fspSession := FspSession.new }
        match ← handleSetup S build fspData (respLen - sessionDatagramBodySize) with
        | .ok ack => return .sendDatagram (replyBody ++ ack)
        | .error _ => return .none
    | .error _ => return .none

def ephemeralOf : SessionResponder → Block 33
  | .xk r => r.eiPub
  | .xx r => r.eiPub.getD (Block.replicate 33 0)

def handleResponderMsg3 (S : Suite) (build : Build) (fspData : Bytes) :
    Action A HandleResult := do
  let before ← get
  match ← onSession (FspSession.handleMsg3 S build fspData) with
  | .error _ => return .none
  | .ok _ =>
      let self ← get
      match before.fspSession.responder, self.fspSession.sessionKeys with
      | some responder, some (kRecv, kSend) =>
          emit (.established (ephemeralOf responder) kRecv kSend)
          return .none
      | _, _ => return .none

def sealReply (S : Suite) (appBuf : ℕ) (replyBody : Bytes) (kSend : Block 32) (msgType : UInt8)
    (payload : Bytes) (respLen : ℕ) : Action A HandleResult := do
  match fspPrependInnerHeader 0 msgType 0x00 payload appBuf with
  | none => return .none
  | some plaintext =>
      let self ← get
      let sendCtr := self.fspSession.sendCounter
      set { self with fspSession := { self.fspSession with sendCounter := sendCtr + 1 } }
      emit (.took kSend sendCtr)
      let header := buildFspHeader sendCtr 0x00 (plaintext.length + tagSize)
      if respLen - (sessionDatagramBodySize + fspHeaderSize) < plaintext.length + tagSize then
        return .none
      else
        match aeadEncrypt S kSend sendCtr header plaintext (plaintext.length + tagSize) with
        | .error _ => return .none
        | .ok ciphertext =>
            emit (.sealed kSend sendCtr)
            return .sendDatagram (replyBody ++ header ++ ciphertext)

def appOffset : ℕ := sessionDatagramBodySize + fspHeaderSize + fspInnerHeaderSize

/-- Hand an opened message to the ICMPv6 responder, and otherwise to the application. -/
def deliver (handler : FspAppHandler A) (srcAddr : Block 16) (msgType : UInt8) (payload : Bytes)
    (room : ℕ) : Action A FspAppResult := do
  match if msgType = fspMsgData then icmpv6EchoReply payload room else none with
  | some reply => return .reply fspMsgData reply
  | none =>
      let self ← get
      let (result, app) := handler.onFspMessage self.app msgType payload room
        { linkPubkey := self.linkPubkey, srcAddr := some srcAddr }
      set { self with app := app }
      return result

def handleResponderData (S : Suite) (handler : FspAppHandler A) (appBuf : ℕ) (srcAddr : Block 16)
    (replyBody fspData : Bytes) (respLen : ℕ) : Action A HandleResult := do
  let self ← get
  if self.fspSession.state ≠ .established then
    return .none
  else
    match parseFspEncryptedHeader fspData, self.fspSession.sessionKeys with
    | some message, some (kRecv, kSend) =>
        emit (.received kRecv message.counter)
        if message.flags &&& flagUnencrypted ≠ 0 then
          return .none
        else
          match aeadDecrypt S kRecv message.counter message.header message.payload appBuf with
          | .error _ => return .none
          | .ok decrypted =>
              match fspStripInnerHeader decrypted with
              | none => return .none
              | some (_, msgType, _, payload) =>
                  if respLen ≤ appOffset then
                    return .none
                  else
                    emit (.delivered kRecv message.counter)
                    match ← deliver handler srcAddr msgType payload (respLen - appOffset) with
                    | .none => return .none
                    | .disconnect => return .disconnect
                    | .reply msgType reply =>
                        if respLen - appOffset < reply.length then
                          throw .panic
                        else
                          sealReply S appBuf replyBody kSend msgType reply respLen
    | _, _ => return .none

def handleResponder (S : Suite) (build : Build) (handler : FspAppHandler A) (appBuf : ℕ)
    (msgType : UInt8) (payload : Bytes) (respLen : ℕ) : Action A HandleResult := do
  if msgType ≠ msgSessionDatagram ∨ payload.length < sessionDatagramBodySize then
    return .none
  else
    let srcAddr := Block.ofBytes 16 (Bytes.slice 3 19 payload)
    let dstAddr := Block.ofBytes 16 (Bytes.slice 19 35 payload)
    let replyBody := buildSessionDatagramBody dstAddr srcAddr
    match payload.drop sessionDatagramBodySize with
    | [] => return .none
    | first :: rest =>
        let fspData := first :: rest
        if first &&& 0x0F = Phase.sessionSetup.toUInt8 then
          handleResponderSetup S build replyBody fspData respLen
        else if first &&& 0x0F = Phase.sessionMsg3.toUInt8 then
          handleResponderMsg3 S build fspData
        else if first &&& 0x0F = Phase.established.toUInt8 then
          handleResponderData S handler appBuf srcAddr replyBody fspData respLen
        else
          return .none

def myAddr (S : Suite) (self : FspDualHandler A) : Option (Block 16) :=
  match ecdhPubkey S self.nsec with
  | .error _ => none
  | .ok pubKey => some (nodeAddr S (xOnly pubKey))

def onInitiator {α : Type} (fsp : FspInitiatorSession)
    (m : EStateM (Fault FspInitiatorError) FspInitiatorSession α) :
    Action A (Except FspInitiatorError α) := fun self =>
  match m.run fsp with
  | .ok a fsp => .ok (.ok a) { self with initiator := some fsp }
  | .error (.err e) fsp => .ok (.error e) { self with initiator := some fsp }
  | .error .panic fsp => .error .panic { self with initiator := some fsp }

def respond (respLen : ℕ) (data : Bytes) : Action A HandleResult :=
  if respLen < data.length then throw .panic else return .sendDatagram data

def setTimer (deadline : ℕ) : Action A PUnit :=
  modify fun self => { self with fspTimer := some deadline }

def handleInitiatorAck (S : Suite) (now : ℕ) (myAddr targetAddr : Block 16)
    (fsp : FspInitiatorSession) (fspData : Bytes) (respLen : ℕ) : Action A HandleResult := do
  match ← onInitiator fsp (FspInitiatorSession.handleAck S fspData) with
  | .error _ => return .none
  | .ok _ =>
      let self ← get
      match self.initiator with
      | none => return .none
      | some fsp =>
          match ← onInitiator fsp (FspInitiatorSession.buildMsg3 S self.fspEpoch 512) with
          | .error _ => return .none
          | .ok msg3 =>
              let result ← respond respLen (buildSessionDatagramBody myAddr targetAddr ++ msg3)
              setTimer (now + fromSecs 2)
              return result

def handleInitiatorData (S : Suite) (fsp : FspInitiatorSession) (fspData : Bytes) :
    Action A HandleResult := do
  match parseFspEncryptedHeader fspData, fsp.sessionKeys with
  | some message, some (kRecv, _) =>
      if message.flags &&& flagUnencrypted ≠ 0 then
        return .none
      else
        match aeadDecrypt S kRecv message.counter message.header message.payload 512 with
        | .error _ => return .none
        | .ok decrypted =>
            match fspStripInnerHeader decrypted with
            | none => return .none
            | some (_, _, _, payload) =>
                let self ← get
                if payload = "PONG".toUTF8.toList ∧ self.testPing = true then
                  return .disconnect
                else
                  return .none
  | _, _ => return .none

def handleInitiator (S : Suite) (now : ℕ) (msgType : UInt8) (payload : Bytes) (respLen : ℕ) :
    Action A HandleResult := do
  let self ← get
  if msgType ≠ msgSessionDatagram then
    return .none
  else
    match self.targetAddr, self.myAddr S, self.initiator with
    | some targetAddr, some myAddr, some fsp =>
        if payload.length < sessionDatagramBodySize then
          return .none
        else
          match payload.drop sessionDatagramBodySize with
          | [] => return .none
          | first :: rest =>
              match fsp.state with
              | .idle => return .none
              | .awaitingAck =>
                  if first &&& 0x0F = Phase.sessionAck.toUInt8 then
                    handleInitiatorAck S now myAddr targetAddr fsp (first :: rest) respLen
                  else
                    return .none
              | .awaitingEstablished =>
                  setTimer (now + fromSecs 8)
                  return .none
              | .established =>
                  if first &&& 0x0F = Phase.established.toUInt8 then
                    handleInitiatorData S fsp (first :: rest)
                  else
                    return .none
    | _, _, _ => return .none

def onMessage (S : Suite) (build : Build) (handler : FspAppHandler A) (appBuf now : ℕ)
    (msgType : UInt8) (payload : Bytes) (respLen : ℕ) : Action A HandleResult := do
  match ← handleResponder S build handler appBuf msgType payload respLen with
  | .none => handleInitiator S now msgType payload respLen
  | r => return r

def sendPing (S : Suite) (now : ℕ) (myAddr targetAddr : Block 16) (fsp : FspInitiatorSession)
    (respLen : ℕ) : Action A HandleResult := do
  match fsp.sessionKeys with
  | none => return .none
  | some (_, kSend) =>
      let sendCtr := fsp.sendCounter
      modify fun self => { self with initiator := some { fsp with sendCounter := sendCtr + 1 } }
      match buildFspDataMessage S sendCtr 0 "PING".toUTF8.toList kSend 512 with
      | .error _ => return .none
      | .ok packet =>
          let result ← respond respLen (buildSessionDatagramBody myAddr targetAddr ++ packet)
          setTimer (now + fromSecs 10)
          return result

def onTick (S : Suite) (now respLen : ℕ) : Action A HandleResult := do
  let self ← get
  match self.targetAddr, self.myAddr S, self.initiator with
  | some targetAddr, some myAddr, some fsp =>
      match fsp.state with
      | .idle =>
          match ← onInitiator fsp (FspInitiatorSession.buildSetup S myAddr targetAddr 512) with
          | .error _ => return .none
          | .ok setup =>
              let datagram := buildSessionDatagramBody myAddr targetAddr ++ setup
              let result ← respond respLen datagram
              modify fun self => { self with lastSetup := some datagram }
              setTimer (now + fromSecs 8)
              return result
      | .awaitingAck =>
          match self.lastSetup with
          | some datagram =>
              let result ← respond respLen datagram
              setTimer (now + fromSecs 8)
              return result
          | none =>
              setTimer (now + fromSecs 8)
              return .none
      | .awaitingEstablished =>
          setTimer (now + fromSecs 8)
          return .none
      | .established => sendPing S now myAddr targetAddr fsp respLen
  | _, _, _ => return .none

/-- What reaches a handler during its life, at time `now` and with a response buffer of
`respLen` bytes. -/
inductive Input where
  | event (now : ℕ) (event : NodeEvent)
  | message (now : ℕ) (msgType : UInt8) (payload : Bytes) (respLen : ℕ)
  | tick (now respLen : ℕ)
  | setLinkPubkey (pk : Block 32)
  deriving DecidableEq

def step (S : Suite) (build : Build) (handler : FspAppHandler A) (appBuf : ℕ) :
    Input → Action A HandleResult
  | .event now event => do
      onEventDefault now event
      return .none
  | .message now msgType payload respLen =>
      onMessage S build handler appBuf now msgType payload respLen
  | .tick now respLen => onTick S now respLen
  | .setLinkPubkey pk => do
      modify fun self => { self with linkPubkey := pk }
      return .none

def run (S : Suite) (build : Build) (handler : FspAppHandler A) (appBuf : ℕ) :
    List Input → Action A PUnit
  | [] => return ⟨⟩
  | input :: inputs => do
      let _ ← step S build handler appBuf input
      run S build handler appBuf inputs

end FspDualHandler
end Session
end Microfips

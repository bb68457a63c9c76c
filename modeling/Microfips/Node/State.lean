import Microfips.Data.Fallible
import Microfips.Noise.IK
import Microfips.Node.Policy
import Microfips.Node.Slot

/-!
# The state of a steady session

What `steady` of `node.rs` works on: the fields of the node and its own variables, in one record,
and the calls out of it, for the time, for random numbers and on the transport.  The four
functions that seal a frame under the current epoch are at the end.

The record also carries a trace of what was done with keys and with frames.  It is not part of
the program: nothing reads it.
-/

namespace Microfips
namespace Node

open Noise Wire

inductive LinkInitiator where
  | ik (hs : NoiseIkInitiator)
  | xx (hs : NoiseXxInitiator)
  deriving DecidableEq

structure RekeyInit where
  hs : LinkInitiator
  ourIndex : SessionIndex
  msg1 : Bytes
  resends : ℕ
  nextResendAt : ℕ
  deriving DecidableEq

structure RekeyHs where
  responder : NoiseXxResponder
  ourIndex : SessionIndex
  theirIdx : SessionIndex
  deriving DecidableEq

/-- What brings a pending epoch into use. -/
inductive Cutover where
  | timer
  | proof (frame : Bytes)
  deriving DecidableEq

inductive KeyEvent where
  /-- A slot was set up: as `cur` by the first handshake, else as `pend`.  The flag is `pend_self`
  as it was before. -/
  | armed (origin : Origin) (ks kr : Block 32) (pendSelf : Bool)
  /-- The slot in `pend` became `cur`. -/
  | cutover (origin : Origin) (kr : Block 32) (cause : Cutover)
  /-- A counter was taken from `cur`. -/
  | took (ks : Block 32) (counter : UInt64)
  /-- A frame was sealed. -/
  | sealed (ks : Block 32) (counter : UInt64)
  /-- An opened frame was handed to the MMP handler or to dispatch. -/
  | dispatched (kr : Block 32) (counter : UInt64)
  deriving DecidableEq

inductive FrameEvent where
  /-- A frame was received and let through by the frame rate limit. -/
  | received (frame : Bytes)
  /-- A frame was sent, and the transport took all of it. -/
  | sent (frame : Bytes)
  /-- A rekey of our own was begun under this index. -/
  | began (ourIndex : SessionIndex)
  deriving DecidableEq

inductive Event where
  | key (e : KeyEvent)
  | frame (e : FrameEvent)
  deriving DecidableEq

namespace Event

def key? : Event → Option KeyEvent
  | key e => some e
  | frame _ => none

def frame? : Event → Option FrameEvent
  | key _ => none
  | frame e => some e

end Event

/-- What stays fixed during a session: the features of the build, the configuration of the node,
the outcome of its handshake, and the operations it is given. -/
structure Config (H M : Type) where
  suite : Suite
  build : Build
  /-- The feature `mmp`. -/
  mmpFeature : Bool
  usizeBits : ℕ
  timing : NodeTiming
  nsec : Block 32
  peerNpub : Block 33
  rawFraming : Bool
  ourProfile : NodeProfile
  peerWantsSr : Bool
  peerWantsRr : Bool
  epoch : Block 8
  handler : NodeHandler H
  mmp : MmpOps M
  world : World

/-- The fields of the node that change in a session and the variables of `steady`. -/
structure Steady (H M : Type) where
  policy : PeerPolicy
  /-- The bytes `rbuf[..rlen]`. -/
  rbuf : Bytes
  rpos : ℕ
  handler : H
  mmp : M
  nextHb : ℕ
  nextSr : ℕ
  nextRr : ℕ
  srStartCtr : UInt64
  srStartTs : UInt32
  cur : EpochSlot
  pend : Option EpochSlot
  prev : Option EpochSlot
  prevDrainBase : ℕ
  badFrameGraceUntil : ℕ
  sessionStarted : ℕ
  rekeyInit : Option RekeyInit
  pendSelf : Bool
  lastPeerRekeyAt : Option ℕ
  lastRekeyMsg1 : Option Bytes
  lastRekeyMsg2 : Option Bytes
  lastFreshAnswerAt : Option ℕ
  rekeyHs : Option RekeyHs
  lastRx : ℕ
  /-- How many calls went out to the world. -/
  calls : ℕ
  /-- What happened, newest first. -/
  trace : List Event

abbrev Ended : Type := Except ProtocolError PUnit

/-- The code of `steady`: it changes the state, and it ends or panics. -/
abbrev Action (H M α : Type) : Type :=
  EStateM (Fault Ended) (Steady H M) α

namespace Steady

variable {H M : Type}

def keyTrace (s : Steady H M) : List KeyEvent :=
  s.trace.filterMap Event.key?

def frameTrace (s : Steady H M) : List FrameEvent :=
  s.trace.filterMap Event.frame?

def emit (e : KeyEvent) : Action H M PUnit :=
  modify fun s => { s with trace := .key e :: s.trace }

variable {α : Type}

theorem run_emit_bind (e : KeyEvent) (f : PUnit → Action H M α) (s : Steady H M) :
    (emit e >>= f).run s = (f ⟨⟩).run { s with trace := .key e :: s.trace } :=
  rfl

def note (e : FrameEvent) : Action H M PUnit :=
  modify fun s => { s with trace := .frame e :: s.trace }

theorem run_note_bind (e : FrameEvent) (f : PUnit → Action H M α) (s : Steady H M) :
    (note e >>= f).run s = (f ⟨⟩).run { s with trace := .frame e :: s.trace } :=
  rfl

def ask {α : Type} (answer : ℕ → α) : Action H M α := do
  let s ← get
  set { s with calls := s.calls + 1 }
  return answer s.calls

/-- Call a method of a local object, `.ok()?`: an error gives nothing, a panic goes on. -/
def attempt {σ α : Type} (m : EStateM (Fault NoiseError) σ α) (object : σ) :
    Action H M (Option (α × σ)) :=
  match m.call object with
  | .ok r => return some r
  | .error (.err _) => return none
  | .error .panic => throw .panic

variable (C : Config H M)

def now : Action H M ℕ :=
  ask C.world.clock

theorem run_now_bind (f : ℕ → Action H M α) (s : Steady H M) :
    (now C >>= f).run s = (f (C.world.clock s.calls)).run { s with calls := s.calls + 1 } :=
  rfl

def transportSend (_data : Bytes) : Action H M Bool :=
  ask C.world.sendOk

/-- The sends of `send_frame`: the length before the payload, or the payload alone on a transport
that keeps frames apart. -/
def sendParts (payload : Bytes) : Action H M Bool := do
  if C.rawFraming then
    transportSend C payload
  else if ← transportSend C (Bytes.ofNat 2 payload.length) then
    transportSend C payload
  else
    return false

def sendFrame (payload : Bytes) : Action H M Bool := do
  if ← sendParts C payload then
    note (.sent payload)
    return true
  else
    return false

def onEvent (event : NodeEvent) : Action H M PUnit := do
  let t ← now C
  modify fun s => { s with handler := C.handler.onEvent t event s.handler }

def takeCounter : Action H M UInt64 := do
  let s ← get
  set { s with cur := { s.cur with sendCtr := s.cur.sendCtr + 1 } }
  emit (.took s.cur.ks s.cur.sendCtr)
  return s.cur.sendCtr

def recordSent (c : UInt64) (ts : UInt32) (bytes : ℕ) : Action H M PUnit :=
  if C.mmpFeature then
    modify fun s => { s with mmp := C.mmp.recordSent c ts bytes s.mmp }
  else
    return ⟨⟩

/-- What the four sending functions do with the counter `c` they took: the message gets its inner
header in a buffer of `innerLen` bytes, is sealed under the current epoch and sent.  Whether a
frame was sealed. -/
def sealAndSend (c : UInt64) (msg : Bytes) (innerLen : ℕ) : Action H M Bool := do
  let t ← now C
  match prependInnerHeader (UInt32.ofNat (asMillis t)) msg innerLen with
  | none => return false
  | some inner =>
      let s ← get
      match encryptAndAssemble C.suite C.build s.cur.them c
        (if s.cur.kBit then flagKeyEpoch else 0x00) inner s.cur.ks 256 with
      | none => return false
      | some frame =>
          emit (.sealed s.cur.ks c)
          let _ ← sendFrame C frame
          recordSent C c (UInt32.ofNat (asMillis t)) frame.length
          return true

def sendLinkMessage (msgType : UInt8) (body : Bytes) : Action H M PUnit := do
  let c ← takeCounter
  if respBufSize < body.length then
    throw .panic
  else
    if ← sealAndSend C c (msgType :: body) 512 then
      modify fun s => { s with policy := s.policy.recordDataFrame }
    else
      return ⟨⟩

def sendSessionDatagram (data : Bytes) : Action H M PUnit :=
  sendLinkMessage C msgSessionDatagram data

def sendHeartbeat : Action H M ℕ := do
  let c ← takeCounter
  let _ ← sealAndSend C c [msgHeartbeat] 32
  return (← now C) + fromSecs C.timing.heartbeatIntervalSecs

def sendDisconnect (reason : UInt8) : Action H M PUnit := do
  let c ← takeCounter
  let _ ← sealAndSend C c [msgDisconnect, reason] 32
  return ⟨⟩

def refresh : Action H M PUnit := do
  let t ← now C
  modify fun s => { s with policy := s.policy.recordGoodFrame, lastRx := t }

end Steady
end Node
end Microfips

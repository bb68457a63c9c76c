import Microfips.Node.Handshake

/-!
# A session

`session` of `node.rs`: the handshake, and the steady loop behind it on the same transport.  The
receive buffer is reset before the handshake and once more between the two.
-/

namespace Microfips
namespace Node

open Noise Wire

variable {H M : Type} (C : Config H M)

namespace PeerPolicy

def recordHandshakeOk (now : ℕ) (policy : PeerPolicy) : PeerPolicy :=
  { policy with
    dataFramesRecv := 0
    heartbeatsRecv := 0
    sessionStart := some now
    consecutiveBadFrames := 0
    totalBadFrames := 0 }

end PeerPolicy

namespace Handshake

def recvFrame : HandshakeAction H (Option Bytes) := do
  let s ← get
  -- `len - pos` underflows
  if s.rbuf.length < s.rpos then
    throw .panic
  else
    let r := s.toRecvBuffer.next C.build C.rawFraming
    match r.1 with
    | none =>
        set { s with toRecvBuffer := r.2 }
        return none
    | some frame =>
        set { s with toRecvBuffer := r.2, received := frame :: s.received }
        return some frame

/-- The loops of a handshake until they wait for the transport.  A frame takes at least a byte, so
that one turn more than there are bytes is enough. -/
def drain : ℕ → Phase → HandshakeAction H Progress
  | 0, phase => return .waits phase
  | fuel + 1, phase => do
      match ← recvFrame C with
      | none => return .waits phase
      | some frame =>
          match ← onFrame C phase frame with
          | .waits phase => drain fuel phase
          | .returns outcome => return .returns outcome

def receive (phase : Phase) : Reception → HandshakeAction H Progress
  | .chunk data => do
      let s ← get
      if Steady.recvBufSize < data.length then
        throw .panic
      else
        let b := s.toRecvBuffer.store C.rawFraming data
        set { s with toRecvBuffer := b }
        drain C (b.rbuf.length + 1) phase
  | .closed => throw (.err .disconnected)
  | .timeout => do return .waits (← onTimeout C phase)

/-- The loops of a handshake on what the transport gives it: how far they come, and what is left
when they return. -/
def await : List Reception → Phase → HandshakeAction H (Progress × List Reception)
  | [], phase => return (.waits phase, [])
  | r :: rs, phase => do
      match ← receive C phase r with
      | .waits phase => await rs phase
      | .returns outcome => return (.returns outcome, rs)

def run (receptions : List Reception) : HandshakeAction H (Progress × List Reception) := do
  let phase ← begin C
  await C receptions phase

end Handshake

/-- The steady loop waits for the transport and for a timer. -/
def Reception.toInput : Reception → Steady.Input
  | .chunk data => .recv data
  | .closed => .recvError
  | .timeout => .timer

/-- What a session is configured with once its handshake is over: on the XX wire the peer has said
which reports it wants. -/
def negotiated (s : Handshake H) : Config H M :=
  { C with peerWantsSr := s.peerWantsSr, peerWantsRr := s.peerWantsRr }

inductive SessionRun (H M : Type) where
  /-- The handshake still waits, or it failed. -/
  | handshake (r : EStateM.Result (Fault ProtocolError) (Handshake H) PUnit)
  /-- The handshake returned, and `steady` entered its loop in the state `entered` and ran. -/
  | steady (outcome : Outcome) (entered : Steady H M)
      (r : EStateM.Result (Fault Ended) (Steady H M) PUnit)

/-- The state in which `steady` enters its loop after the handshake.  The bytes that the handshake
left in the receive buffer are dropped. -/
def enterSteady (policy : PeerPolicy) (mmp : M) (outcome : Outcome) (s : Handshake H) :
    Steady H M :=
  let policy := policy.recordHandshakeOk (C.world.clock s.calls)
  let handler := C.handler.onEvent (C.world.clock (s.calls + 1)) .handshakeOk s.handler
  Steady.enter (negotiated C s) outcome.ks outcome.kr outcome.them policy handler mmp (s.calls + 2)

def session (policy : PeerPolicy) (mmp : M) (receptions : List Reception) (s : Handshake H) :
    SessionRun H M :=
  match (Handshake.run C receptions).run { s with toRecvBuffer := .empty } with
  | .error e t => .handshake (.error e t)
  | .ok (.waits _, _) t => .handshake (.ok ⟨⟩ t)
  | .ok (.returns outcome, rest) t =>
      let entered := enterSteady C policy mmp outcome t
      .steady outcome entered
        ((Steady.run (negotiated C t) (rest.map Reception.toInput)).run entered)

end Node
end Microfips

import Microfips.Data.Bytes

/-!
# What a node is given

The types of `microfips-protocol`, file `node.rs`, through which a node meets the rest of the
program: events and messages for its handler, the timing it is configured with, the operations
of the MMP measurements, and the clock, random numbers and transport of its world.  Instants are
clock ticks of a microsecond.
-/

namespace Microfips
namespace Node

def ticksPerSecond : ℕ := 1000000

def ticksPerMilli : ℕ := 1000

def asSecs (ticks : ℕ) : ℕ := ticks / ticksPerSecond

def fromSecs (secs : ℕ) : ℕ := ticksPerSecond * secs

def asMillis (ticks : ℕ) : ℕ := ticks / ticksPerMilli

def fromMillis (millis : ℕ) : ℕ := ticksPerMilli * millis

def msgSessionDatagram : UInt8 := 0x00

inductive ProtocolError where
  | disconnected
  | timeout
  | invalidFrame
  | invalidMessage
  | decryptFailed
  | peerDisconnected
  | peerKeyMismatch
  deriving DecidableEq

inductive NodeEvent where
  | connected
  | msg1Sent
  | handshakeOk
  | heartbeatSent
  | heartbeatRecv
  | disconnected
  | error
  deriving DecidableEq

inductive HandleResult where
  | none
  | sendDatagram (data : Bytes)
  | disconnect
  deriving DecidableEq

/-- `NodeHandler`, on handlers of the type `H`.  The first argument is the time of the call. -/
structure NodeHandler (H : Type) where
  onEvent : ℕ → NodeEvent → H → H
  onMessage : ℕ → UInt8 → Bytes → H → HandleResult × H
  pollAt : H → Option ℕ
  onTick : ℕ → H → HandleResult × H

/-- The operations of `MmpPeerState` that a node calls, on measurements of the type `M`.
Reports are in their encoded form. -/
structure MmpOps (M : Type) where
  resetForRekey : ℕ → M → M
  recordRecv : UInt64 → UInt32 → ℕ → ℕ → M → M
  recordSent : UInt64 → UInt32 → ℕ → M → M
  /-- `maybe_handle_mmp_control` on a sender report: the report to answer with. -/
  onSenderReport : ℕ → Bytes → M → Option Bytes × M
  /-- `maybe_handle_mmp_control` on a receiver report. -/
  onReceiverReport : ℕ → Bytes → M → M
  buildSenderReport : ℕ → M → Option Bytes × M
  buildReceiverReport : ℕ → M → Option Bytes × M
  senderReportInterval : M → ℕ
  receiverReportInterval : M → ℕ

structure NodeTiming where
  heartbeatIntervalSecs : ℕ
  linkDeadTimeoutSecs : ℕ
  rekeyAfterSecs : ℕ
  rekeyAfterMessages : ℕ
  retryBaseIntervalSecs : ℕ
  retryMaxBackoffSecs : ℕ
  handshakeResendIntervalMs : ℕ
  handshakeResendBackoff : ℕ
  handshakeMaxResends : ℕ
  connectDelayMs : ℕ
  badFrameGraceSecs : ℕ
  rekeyAnswerMinIntervalMs : ℕ
  deriving DecidableEq

namespace NodeTiming

def default : NodeTiming where
  heartbeatIntervalSecs := 10
  linkDeadTimeoutSecs := 30
  rekeyAfterSecs := 0
  rekeyAfterMessages := 0
  retryBaseIntervalSecs := 5
  retryMaxBackoffSecs := 300
  handshakeResendIntervalMs := 3000
  handshakeResendBackoff := 1
  handshakeMaxResends := 10
  connectDelayMs := 500
  badFrameGraceSecs := 10
  rekeyAnswerMinIntervalMs := 500

def handshakeResendTimeoutMs (timing : NodeTiming) (resendCount : ℕ) : ℕ :=
  let factor := max timing.handshakeResendBackoff 1
  let scaled := (fun ms => min (ms * factor) (2 ^ 64 - 1))^[min resendCount 15]
    timing.handshakeResendIntervalMs
  min scaled (2 ^ 32 - 1)

end NodeTiming

/-- The world of a node.  Each of its calls on the clock, the random number generator and the
transport has a number, and the world answers them by that number. -/
structure World where
  /-- `Instant::now`. -/
  clock : ℕ → ℕ
  /-- The secret that `generate_valid_eph` ends with. -/
  ephemeral : ℕ → Block 32
  /-- The index that `allocate_session_index` ends with. -/
  index : ℕ → UInt32
  /-- Whether the transport takes what is sent. -/
  sendOk : ℕ → Bool

end Node
end Microfips

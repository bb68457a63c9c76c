import Microfips.Node.Steady

/-!
# Receiving a frame

`recv_frame` of `node.rs`, which a handshake waits in: it takes the next frame from the receive
buffer and asks the transport for more bytes when there is none.  The part between two calls of
the transport is a function of the buffer.
-/

namespace Microfips
namespace Node

open Wire

inductive Reception where
  | chunk (data : Bytes)
  | closed
  | timeout
  deriving DecidableEq

/-- The receive buffer: the bytes `rbuf[..rlen]` and the position in them. -/
structure RecvBuffer where
  rbuf : Bytes
  rpos : ℕ
  deriving DecidableEq

namespace RecvBuffer

def empty : RecvBuffer where
  rbuf := []
  rpos := 0

def pending (b : RecvBuffer) : Bytes :=
  b.rbuf.drop b.rpos

def advance (n : ℕ) (b : RecvBuffer) : RecvBuffer :=
  if b.rbuf.length ≤ b.rpos + n then empty else { b with rpos := b.rpos + n }

def compact (b : RecvBuffer) : RecvBuffer :=
  if 0 < b.rpos ∧ b.rpos < b.rbuf.length then { rbuf := b.pending, rpos := 0 } else b

def nextRaw (build : Build) (b : RecvBuffer) : Option Bytes × RecvBuffer :=
  match extractRawFrame build b.pending with
  | none => (none, b)
  | some (frame, n) => (some (frame.take maxFrameSize), b.advance n)

def nextLengthPrefixed : ℕ → RecvBuffer → Option Bytes × RecvBuffer
  | 0, b => (none, b)
  | fuel + 1, b =>
      match extractLengthPrefixedFrame b.pending with
      | none => (none, b)
      | some (frame, n) =>
          if frame = [] then nextLengthPrefixed fuel (b.advance n)
          else (some (frame.take maxFrameSize), b.advance n)

/-- The frame that `recv_frame` returns without waiting, or the buffer with which it waits. -/
def next (build : Build) (rawFraming : Bool) (b : RecvBuffer) : Option Bytes × RecvBuffer :=
  let r := if rawFraming then b.nextRaw build else b.nextLengthPrefixed b.rbuf.length
  match r.1 with
  | none => (none, r.2.compact)
  | some frame => (some frame, r.2)

/-- A chunk has arrived.  In raw framing it takes the place of what was there; otherwise it is
appended, and a buffer that would overflow is reset. -/
def store (rawFraming : Bool) (chunk : Bytes) (b : RecvBuffer) : RecvBuffer :=
  if rawFraming then { rbuf := chunk, rpos := 0 }
  else if maxFrameSize < b.rbuf.length + chunk.length then empty
  else { b with rbuf := b.rbuf ++ chunk }

end RecvBuffer
end Node
end Microfips

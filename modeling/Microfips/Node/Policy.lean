import Microfips.Node.Interface

/-!
# The peer policy

`PeerPolicy` of `microfips-protocol`, file `peer_policy.rs`, as far as a session uses it: the
frame rate window, the counts of good and bad frames, and the check for a peer that sends
nothing but heartbeats.  Counters saturate at the bounds of their types.
-/

namespace Microfips
namespace Node

def frameRateMax : ℕ := 100

def silentPeerMinDataRatio : ℕ := 1

def maxConsecutiveBad : ℕ := 20

def maxTotalBadFrames : ℕ := 100

inductive PolicyVerdict where
  | allow
  | reject
  deriving DecidableEq

structure PeerPolicy where
  frameRateWindowMs : ℕ
  linkDeadTimeoutSecs : ℕ
  frameCount : ℕ
  frameWindowStart : ℕ
  dataFramesRecv : ℕ
  heartbeatsRecv : ℕ
  sessionStart : Option ℕ
  consecutiveBadFrames : ℕ
  totalBadFrames : ℕ
  deriving DecidableEq

namespace PeerPolicy

def checkFrameRate (now : ℕ) (self : PeerPolicy) : PolicyVerdict × PeerPolicy :=
  let elapsedMs := asMillis now - asMillis self.frameWindowStart
  let self :=
    if self.frameRateWindowMs ≤ elapsedMs then
      { self with frameWindowStart := now, frameCount := 0 }
    else
      self
  if frameRateMax ≤ self.frameCount then
    (.reject, { self with frameWindowStart := now, frameCount := 0 })
  else
    (.allow, { self with frameCount := min (self.frameCount + 1) (2 ^ 16 - 1) })

def recordDataFrame (self : PeerPolicy) : PeerPolicy :=
  { self with dataFramesRecv := min (self.dataFramesRecv + 1) (2 ^ 32 - 1) }

def recordHeartbeat (self : PeerPolicy) : PeerPolicy :=
  { self with heartbeatsRecv := min (self.heartbeatsRecv + 1) (2 ^ 32 - 1) }

def recordBadFrame (self : PeerPolicy) : PeerPolicy :=
  { self with
    consecutiveBadFrames := min (self.consecutiveBadFrames + 1) (2 ^ 16 - 1)
    totalBadFrames := min (self.totalBadFrames + 1) (2 ^ 32 - 1) }

def recordGoodFrame (self : PeerPolicy) : PeerPolicy :=
  { self with consecutiveBadFrames := 0 }

def checkSilentPeer (now : ℕ) (self : PeerPolicy) : PolicyVerdict :=
  match self.sessionStart with
  | none => .allow
  | some sessionStart =>
      if self.linkDeadTimeoutSecs < asSecs now - asSecs sessionStart ∧
          self.dataFramesRecv < silentPeerMinDataRatio ∧ 0 < self.heartbeatsRecv then
        .reject
      else
        .allow

def checkBadFrameLimit (self : PeerPolicy) : PolicyVerdict :=
  if maxConsecutiveBad ≤ self.consecutiveBadFrames then .reject else .allow

def checkTotalBadFrameLimit (self : PeerPolicy) : PolicyVerdict :=
  if maxTotalBadFrames ≤ self.totalBadFrames then .reject else .allow

end PeerPolicy
end Node
end Microfips

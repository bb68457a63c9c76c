import Microfips.Noise.XX

/-!
# Negotiation payloads

The block that the `noise-xx` build seals behind its handshake messages: a format byte, the
supported version range and a feature word.  `fips-fmp`, file `negotiation.rs`.
-/

namespace Microfips
namespace Wire

open Noise

/-- The two builds of the crates: without and with the feature `noise-xx`.  On the link the
first speaks IK and the second XX, in sessions the first speaks XK and the second XX. -/
inductive Build where
  | ik
  | xx
  deriving DecidableEq

def negotiationMaxSize : ℕ := 64

def negotiationHeaderSize : ℕ := 10

inductive NodeProfile where
  | full
  | nonRouting
  | leaf
  deriving DecidableEq

namespace NodeProfile

def toUInt64 : NodeProfile → UInt64
  | full => 0
  | nonRouting => 1
  | leaf => 2

def fromFeatures (features : UInt64) : Option NodeProfile :=
  match (features &&& 0x07).toNat with
  | 0 => some full
  | 1 => some nonRouting
  | 2 => some leaf
  | _ => none

def validPairing (ours theirs : NodeProfile) : Bool :=
  ours = full || theirs = full

end NodeProfile

def fmpFeatProvidesSr : UInt64 := 0x08

def fmpFeatProvidesRr : UInt64 := 0x10

def fmpFeatWantsSr : UInt64 := 0x20

def fmpFeatWantsRr : UInt64 := 0x40

def fmpFeatures (profile : NodeProfile) : UInt64 :=
  match profile with
  | .full =>
      profile.toUInt64 ||| fmpFeatProvidesSr ||| fmpFeatProvidesRr ||| fmpFeatWantsSr |||
        fmpFeatWantsRr
  | .nonRouting => profile.toUInt64 ||| fmpFeatProvidesSr ||| fmpFeatProvidesRr ||| fmpFeatWantsRr
  | .leaf => profile.toUInt64 ||| fmpFeatProvidesRr

inductive NegotiationError where
  | tooShort
  | badFormat
  | badVersionRange
  | truncatedTlv
  | badRekeyMarker
  deriving DecidableEq

structure NegotiationHeader where
  versionMin : UInt8
  versionMax : UInt8
  features : UInt64
  deriving DecidableEq

namespace NegotiationHeader

def parse (data : Bytes) : Except NegotiationError NegotiationHeader :=
  if data.length < negotiationHeaderSize then
    .error .tooShort
  else if data.getD 0 0 ≠ 0 then
    .error .badFormat
  else
    let versionMin := data.getD 1 0 >>> 4
    let versionMax := data.getD 1 0 &&& 0x0F
    if versionMax < versionMin then
      .error .badVersionRange
    else
      .ok { versionMin, versionMax, features := UInt64.ofNat (Bytes.toNat (Bytes.slice 2 10 data)) }

def agreeVersion (self other : NegotiationHeader) : Except NegotiationError UInt8 :=
  let agreed := min self.versionMax other.versionMax
  if agreed < self.versionMin ∨ agreed < other.versionMin then
    .error .badVersionRange
  else
    .ok agreed

def nodeProfile (self : NegotiationHeader) : Option NodeProfile :=
  NodeProfile.fromFeatures self.features

end NegotiationHeader

/-- `encode_payload` without a rekey marker, into a buffer of `outLen` bytes. -/
def encodePayload (outLen : ℕ) (versionMin versionMax : UInt8) (features : UInt64) :
    Option Bytes :=
  if outLen < negotiationHeaderSize then
    none
  else
    some (0 :: (versionMin <<< 4 ||| versionMax &&& 0x0F) :: Bytes.ofNat 8 features.toNat)

theorem encodePayload_length {outLen : ℕ} {versionMin versionMax : UInt8} {features : UInt64}
    {payload : Bytes} (h : encodePayload outLen versionMin versionMax features = some payload) :
    payload.length = negotiationHeaderSize := by
  rw [encodePayload] at h
  split at h
  · cases h
  · cases h
    simp [negotiationHeaderSize]

def splitHandshakeNoise (payload : Bytes) (baseSize : ℕ) : Bytes × Option Bytes :=
  if baseSize < payload.length then
    (payload.take baseSize, some (payload.drop baseSize))
  else
    (payload, none)

theorem splitHandshakeNoise_append {base rest : Bytes} {baseSize : ℕ}
    (hbase : base.length = baseSize)
    (hrest : 0 < rest.length) :
    splitHandshakeNoise (base ++ rest) baseSize = (base, some rest) := by
  rw [splitHandshakeNoise, if_pos (by rw [List.length_append]; omega), List.take_left' hbase,
    List.drop_left' hbase]

def splitMsg2Noise (payload : Bytes) : Bytes × Option Bytes :=
  splitHandshakeNoise payload xxHandshakeMsg2Size

def splitMsg3Noise (payload : Bytes) : Bytes × Option Bytes :=
  splitHandshakeNoise payload xxHandshakeMsg3Size

end Wire
end Microfips

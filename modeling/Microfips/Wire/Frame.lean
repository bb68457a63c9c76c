import Microfips.Wire.Negotiation

/-!
# Link frames

The frames of `fips-fmp`, file `lib.rs`: a four byte prefix, the three handshake messages that
name their session indices, and sealed frames whose sixteen byte header is the associated data
of the cipher.  At the end the two ways in which `node.rs` finds frames in received bytes.
-/

namespace Microfips
namespace Wire

open Noise

def fmpVersion : Build → UInt8
  | .ik => 0
  | .xx => 1

inductive FmpPhase where
  | established
  | msg1
  | msg2
  | msg3
  deriving DecidableEq

namespace FmpPhase

def toUInt8 : FmpPhase → UInt8
  | established => 0x00
  | msg1 => 0x01
  | msg2 => 0x02
  | msg3 => 0x03

end FmpPhase

def commonPrefixSize : ℕ := 4

def idxSize : ℕ := 4

def establishedHeaderSize : ℕ := 16

def innerHeaderSize : ℕ := 5

def handshakeMsg1Size : Build → ℕ
  | .ik => 33 + (33 + tagSize) + (8 + tagSize)
  | .xx => xxHandshakeMsg1Size

def handshakeMsg2Size : Build → ℕ
  | .ik => 33 + (8 + tagSize)
  | .xx => xxHandshakeMsg2Size

/-- `HANDSHAKE_MSG3_SIZE`; without `noise-xx` the size of XK. -/
def handshakeMsg3Size : Build → ℕ
  | .ik => (33 + tagSize) + (8 + tagSize)
  | .xx => xxHandshakeMsg3Size

def msg1WireSize (build : Build) : ℕ := commonPrefixSize + idxSize + handshakeMsg1Size build

def msg2WireSize (build : Build) : ℕ := commonPrefixSize + idxSize * 2 + handshakeMsg2Size build

def msg3WireSize (build : Build) : ℕ := commonPrefixSize + idxSize * 2 + handshakeMsg3Size build

def flagKeyEpoch : UInt8 := 0x01

abbrev SessionIndex : Type := UInt32

def idxBytes (idx : SessionIndex) : Bytes :=
  Bytes.ofNat idxSize idx.toNat

def idxOfBytes (b : Bytes) : SessionIndex :=
  UInt32.ofNat (Bytes.toNat b)

inductive FmpMessage where
  | msg1 (senderIdx : SessionIndex) (noisePayload : Bytes)
  | msg2 (senderIdx receiverIdx : SessionIndex) (noisePayload : Bytes)
  | msg3 (senderIdx receiverIdx : SessionIndex) (noisePayload : Bytes)
  | established (receiverIdx : SessionIndex) (counter : UInt64) (encrypted : Bytes)
  deriving DecidableEq

def buildPrefix (build : Build) (phase : FmpPhase) (flags : UInt8) (payloadLen : ℕ) : Bytes :=
  (fmpVersion build <<< 4 ||| phase.toUInt8 &&& 0x0F) :: flags :: Bytes.ofNat 2 payloadLen

/-- `parse_prefix`: the phase and the flags. -/
def parsePrefix (build : Build) (data : Bytes) : Option (UInt8 × UInt8) :=
  if data.length < commonPrefixSize then
    none
  else if data.getD 0 0 >>> 4 ≠ fmpVersion build then
    none
  else
    some (data.getD 0 0 &&& 0x0F, data.getD 1 0)

def buildMsg1 (build : Build) (senderIdx : SessionIndex) (noisePayload : Bytes) (outLen : ℕ) :
    Option Bytes :=
  if outLen < commonPrefixSize + idxSize + noisePayload.length then
    none
  else
    some (buildPrefix build .msg1 0x00 (idxSize + noisePayload.length) ++ idxBytes senderIdx ++
      noisePayload)

/-- The common body of `build_msg2` and `build_msg3`. -/
def buildMsg (build : Build) (phase : FmpPhase) (senderIdx receiverIdx : SessionIndex)
    (noisePayload : Bytes) (outLen : ℕ) : Option Bytes :=
  if outLen < commonPrefixSize + idxSize * 2 + noisePayload.length then
    none
  else
    some (buildPrefix build phase 0x00 (idxSize * 2 + noisePayload.length) ++
      idxBytes senderIdx ++ idxBytes receiverIdx ++ noisePayload)

def buildMsg2 (build : Build) (senderIdx receiverIdx : SessionIndex) (noisePayload : Bytes)
    (outLen : ℕ) : Option Bytes :=
  buildMsg build .msg2 senderIdx receiverIdx noisePayload outLen

def buildMsg3 (build : Build) (senderIdx receiverIdx : SessionIndex) (noisePayload : Bytes)
    (outLen : ℕ) : Option Bytes :=
  buildMsg build .msg3 senderIdx receiverIdx noisePayload outLen

def buildEstablishedHeader (build : Build) (receiverIdx : SessionIndex) (counter : UInt64)
    (flags : UInt8) (payloadLen : ℕ) : Bytes :=
  buildPrefix build .established flags payloadLen ++ idxBytes receiverIdx ++
    Bytes.ofNat 8 counter.toNat

def prependInnerHeader (timestampMs : UInt32) (payload : Bytes) (outLen : ℕ) : Option Bytes :=
  if outLen < 4 + payload.length then
    none
  else
    some (Bytes.ofNat 4 timestampMs.toNat ++ payload)

def stripInnerHeader (plaintext : Bytes) : Option (UInt32 × Bytes) :=
  if plaintext.length < innerHeaderSize then
    none
  else
    some (UInt32.ofNat (Bytes.toNat (plaintext.take 4)), plaintext.drop 4)

def encryptAndAssemble (S : Suite) (build : Build) (receiverIdx : SessionIndex)
    (counter : UInt64) (flags : UInt8) (inner : Bytes) (key : Block 32) (outLen : ℕ) :
    Option Bytes :=
  if outLen < establishedHeaderSize + (inner.length + tagSize) then
    none
  else
    let header := buildEstablishedHeader build receiverIdx counter flags inner.length
    match aeadEncrypt S key counter header inner (outLen - establishedHeaderSize) with
    | .error _ => none
    | .ok encrypted => some (header ++ encrypted)

structure EncryptedHeader where
  receiverIdx : SessionIndex
  counter : UInt64
  headerBytes : Bytes
  deriving DecidableEq

def EncryptedHeader.parse (build : Build) (data : Bytes) : Option EncryptedHeader :=
  if data.length < establishedHeaderSize then
    none
  else
    match parsePrefix build data with
    | none => none
    | some (phase, _) =>
        if phase ≠ FmpPhase.established.toUInt8 then
          none
        else
          some {
            receiverIdx := idxOfBytes (Bytes.slice 4 8 data)
            counter := UInt64.ofNat (Bytes.toNat (Bytes.slice 8 16 data))
            headerBytes := data.take establishedHeaderSize }

theorem EncryptedHeader.headerBytes_of_parse {build : Build} {data : Bytes} {enc : EncryptedHeader}
    (h : EncryptedHeader.parse build data = some enc) :
    enc.headerBytes = data.take establishedHeaderSize := by
  rw [EncryptedHeader.parse] at h
  split at h
  · cases h
  · split at h
    · cases h
    · split at h
      · cases h
      · obtain rfl := Option.some.inj h
        rfl

def parseMessage (build : Build) (data : Bytes) : Option FmpMessage :=
  match parsePrefix build data with
  | none => none
  | some (phase, _) =>
      let payload := data.drop commonPrefixSize
      let senderIdx := idxOfBytes (payload.take idxSize)
      let receiverIdx := idxOfBytes (Bytes.slice idxSize (idxSize * 2) payload)
      if phase = FmpPhase.msg1.toUInt8 then
        if payload.length < idxSize then none
        else some (.msg1 senderIdx (payload.drop idxSize))
      else if phase = FmpPhase.msg2.toUInt8 then
        if payload.length < idxSize * 2 then none
        else some (.msg2 senderIdx receiverIdx (payload.drop (idxSize * 2)))
      else if phase = FmpPhase.msg3.toUInt8 then
        if payload.length < idxSize * 2 then none
        else some (.msg3 senderIdx receiverIdx (payload.drop (idxSize * 2)))
      else if phase = FmpPhase.established.toUInt8 then
        if payload.length < idxSize + 8 then none
        else some (.established senderIdx
          (UInt64.ofNat (Bytes.toNat (Bytes.slice idxSize (idxSize + 8) payload)))
          (payload.drop (idxSize + 8)))
      else
        none

theorem parseMessage_of_parse {build : Build} {data : Bytes} {enc : EncryptedHeader}
    (h : EncryptedHeader.parse build data = some enc) :
    ∃ receiverIdx counter encrypted,
      parseMessage build data = some (.established receiverIdx counter encrypted) := by
  rw [EncryptedHeader.parse] at h
  split at h
  · cases h
  · rename_i hlen
    split at h
    · cases h
    · rename_i phase _ hparse
      split at h
      · cases h
      · rename_i hphase
        obtain rfl : phase = FmpPhase.established.toUInt8 := not_not.mp hphase
        have hpayload : idxSize + 8 ≤ data.length - commonPrefixSize := by
          simp only [establishedHeaderSize, commonPrefixSize, idxSize] at hlen ⊢
          omega
        simp [parseMessage, hparse, hpayload, FmpPhase.toUInt8]

def maxFrame : ℕ := 1500

/-- `CommonPrefix::parse`: phase and payload length; the version is not looked at. -/
def parseCommonPrefix (data : Bytes) : Option (UInt8 × ℕ) :=
  if data.length < commonPrefixSize then
    none
  else
    some (data.getD 0 0 &&& 0x0F, Bytes.toNat (Bytes.slice 2 4 data))

def handshakeFrameSize (data : Bytes) (payloadLen baseWireSize : ℕ) : Option ℕ :=
  let total := commonPrefixSize + payloadLen
  if total < baseWireSize ∨ data.length < total ∨ maxFrame < total then none else some total

def fmpRawFrameSize (build : Build) (data : Bytes) : Option ℕ :=
  match parseCommonPrefix data with
  | none => none
  | some (phase, payloadLen) =>
      if phase = FmpPhase.msg1.toUInt8 then
        if data.length < msg1WireSize build then none else some (msg1WireSize build)
      else if phase = FmpPhase.msg2.toUInt8 then
        handshakeFrameSize data payloadLen (msg2WireSize build)
      else if phase = FmpPhase.msg3.toUInt8 then
        handshakeFrameSize data payloadLen (msg3WireSize build)
      else
        none

/-- `extract_raw_frame` on the bytes that are left: the frame and how many bytes it takes. -/
def extractRawFrame (build : Build) (data : Bytes) : Option (Bytes × ℕ) :=
  if data.length < commonPrefixSize then
    none
  else
    match fmpRawFrameSize build data with
    | some total => if data.length < total then none else some (data.take total, total)
    | none =>
        match parseCommonPrefix data with
        | none => none
        | some (phase, _) =>
            if phase = FmpPhase.established.toUInt8 then
              if data.length < establishedHeaderSize + tagSize then none
              else some (data, data.length)
            else
              none

/-- `extract_length_prefixed_frame` on the bytes that are left: the frame and how many bytes it
takes.  A length outside `1..=MAX_FRAME` gives an empty frame that skips the length. -/
def extractLengthPrefixedFrame (data : Bytes) : Option (Bytes × ℕ) :=
  if data.length < 2 then
    none
  else
    let ml := Bytes.toNat (data.take 2)
    if ml = 0 ∨ maxFrame < ml then
      some ([], min 2 data.length)
    else if data.length - 2 < ml then
      none
    else
      some (Bytes.slice 2 (2 + ml) data, 2 + ml)

/-- The frames that the receive loop of `steady` takes from the buffer `data` from position
`pos` on, and the position at which it stops.  Handling a frame does not touch the buffer. -/
def splitFrames (build : Build) (rawFraming : Bool) (data : Bytes) : ℕ → ℕ → List Bytes × ℕ
  | 0, pos => ([], pos)
  | fuel + 1, pos =>
      if pos < data.length then
        match if rawFraming then extractRawFrame build (data.drop pos)
          else extractLengthPrefixedFrame (data.drop pos) with
        | none => ([], pos)
        | some (frame, n) =>
            let (frames, stop) := splitFrames build rawFraming data fuel (pos + n)
            if frame = [] then (frames, stop) else (frame :: frames, stop)
      else
        ([], pos)

end Wire
end Microfips

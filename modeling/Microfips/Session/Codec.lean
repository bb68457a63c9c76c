import Microfips.Data.Slice
import Microfips.Noise.Suite

/-!
# Wire format of the session layer

The builders and parsers of `microfips-core`, file `fsp.rs`: the datagram body that names
source and destination, the three handshake messages, and the header, inner header and
payload of sealed data messages.
-/

namespace Microfips
namespace Session

open Noise

inductive FspError where
  | bufferTooSmall
  | invalidFrame
  | invalidCoords
  deriving DecidableEq

inductive Phase where
  | established
  | sessionSetup
  | sessionAck
  | sessionMsg3
  deriving DecidableEq

namespace Phase

def toUInt8 : Phase → UInt8
  | established => 0x00
  | sessionSetup => 0x01
  | sessionAck => 0x02
  | sessionMsg3 => 0x03

end Phase

def fspMsgData : UInt8 := 0x10

def flagCoordsPresent : UInt8 := 0x01

def flagUnencrypted : UInt8 := 0x04

def sessionDatagramBodySize : ℕ := 35

def fspHeaderSize : ℕ := 12

def fspInnerHeaderSize : ℕ := 6

def fspEncryptedMinSize : ℕ := 28

def buildSessionDatagramBody (src dst : Block 16) : Bytes :=
  [64, 0xFF, 0xFF] ++ src.bytes ++ dst.bytes

def fspPrefix (phase : Phase) (flags : UInt8) (payloadLen : ℕ) : Bytes :=
  [phase.toUInt8 &&& 0x0F, flags] ++ Bytes.ofNat 2 payloadLen

def coordBytes (coords : List (Block 16)) : Bytes :=
  Bytes.ofNat 2 coords.length ++ (coords.map Block.bytes).flatten

def buildSessionHandshake (phase : Phase) (flags : UInt8) (srcCoords destCoords : List (Block 16))
    (handshake : Bytes) (outLen : ℕ) : Except FspError Bytes :=
  if srcCoords.isEmpty || destCoords.isEmpty then
    .error .invalidCoords
  else
    let bodyLen := 1 + (2 + srcCoords.length * 16) + (2 + destCoords.length * 16) + 2 +
      handshake.length
    if outLen < 4 + bodyLen then
      .error .bufferTooSmall
    else if 2 ^ 16 - 1 < bodyLen then
      .error .bufferTooSmall
    else
      .ok (fspPrefix phase 0x00 bodyLen ++ flags ::
        (coordBytes srcCoords ++ coordBytes destCoords ++ Bytes.ofNat 2 handshake.length ++
          handshake))

def buildSessionSetup (sessionFlags : UInt8) (srcCoords destCoords : List (Block 16))
    (handshake : Bytes) (outLen : ℕ) : Except FspError Bytes :=
  buildSessionHandshake .sessionSetup sessionFlags srcCoords destCoords handshake outLen

def buildSessionAck (srcCoords destCoords : List (Block 16)) (handshake : Bytes) (outLen : ℕ) :
    Except FspError Bytes :=
  buildSessionHandshake .sessionAck 0x00 srcCoords destCoords handshake outLen

def buildSessionMsg3 (handshake : Bytes) (outLen : ℕ) : Except FspError Bytes :=
  if outLen < 4 + (1 + 2 + handshake.length) then
    .error .bufferTooSmall
  else
    .ok (fspPrefix .sessionMsg3 0x00 (1 + 2 + handshake.length) ++ 0x00 ::
      (Bytes.ofNat 2 handshake.length ++ handshake))

/-- The checks every session parser begins with: length, version and phase, and the payload
length of the prefix.  Returns the body. -/
def parseSessionBody (phase : Phase) (data : Bytes) : Except (Fault FspError) Bytes := do
  if data.length < 4 then
    throw (.err .invalidFrame)
  else
    let verPhase ← Bytes.index data 0
    if verPhase >>> 4 ≠ 0 ∨ verPhase &&& 0x0F ≠ phase.toUInt8 then
      throw (.err .invalidFrame)
    else
      let payloadLen ← Bytes.indexU16 data 2
      let body := data.drop 4
      if body.length < payloadLen then
        throw (.err .invalidFrame)
      else
        return body.take payloadLen

def skipCoords (body : Bytes) (pos : ℕ) : Except (Fault FspError) ℕ := do
  let count ← Bytes.indexU16 body pos
  if body.length < pos + 2 + count * 16 then
    throw (.err .invalidCoords)
  else
    return pos + 2 + count * 16

def parseHandshake (body : Bytes) (pos : ℕ) : Except (Fault FspError) Bytes := do
  if body.length < pos + 2 then
    throw (.err .invalidFrame)
  else
    let hsLen ← Bytes.indexU16 body pos
    if body.length < pos + 2 + hsLen then
      throw (.err .invalidFrame)
    else
      Bytes.range body (pos + 2) (pos + 2 + hsLen)

def parseSessionSetupFull (data : Bytes) : Except (Fault FspError) (UInt8 × Block 16 × Bytes) := do
  let body ← parseSessionBody .sessionSetup data
  if body.length < 1 + 2 + 16 then
    throw (.err .invalidFrame)
  else
    let sessionFlags ← Bytes.index body 0
    let srcCount ← Bytes.indexU16 body 1
    if srcCount = 0 then
      throw (.err .invalidCoords)
    else
      let srcFirst ← Bytes.range body 3 19
      let pos ← skipCoords body 1
      let pos ← skipCoords body pos
      let handshake ← parseHandshake body pos
      return (sessionFlags, Block.ofBytes 16 srcFirst, handshake)

def parseSessionSetup (data : Bytes) : Except (Fault FspError) (UInt8 × Bytes) := do
  let (sessionFlags, _, handshake) ← parseSessionSetupFull data
  return (sessionFlags, handshake)

def parseSessionAck (data : Bytes) : Except (Fault FspError) Bytes := do
  let body ← parseSessionBody .sessionAck data
  if body.isEmpty then
    throw (.err .invalidFrame)
  else
    let pos ← skipCoords body 1
    let pos ← skipCoords body pos
    parseHandshake body pos

def parseSessionMsg3 (data : Bytes) : Except (Fault FspError) Bytes := do
  let body ← parseSessionBody .sessionMsg3 data
  if body.length < 3 then
    throw (.err .invalidFrame)
  else
    let hsLen ← Bytes.indexU16 body 1
    if body.length < 3 + hsLen then
      throw (.err .invalidFrame)
    else
      Bytes.range body 3 (3 + hsLen)

def buildFspHeader (counter : UInt64) (flags : UInt8) (payloadLen : ℕ) : Bytes :=
  [Phase.established.toUInt8, flags] ++ Bytes.ofNat 2 payloadLen ++ Bytes.ofNat 8 counter.toNat

def fspPrependInnerHeader (timestampMs : UInt32) (msgType innerFlags : UInt8) (payload : Bytes)
    (outLen : ℕ) : Option Bytes :=
  if outLen < fspInnerHeaderSize + payload.length then
    none
  else
    some (Bytes.ofNat 4 timestampMs.toNat ++ [msgType, innerFlags] ++ payload)

def fspStripInnerHeader (data : Bytes) : Option (UInt32 × UInt8 × UInt8 × Bytes) :=
  if data.length < fspInnerHeaderSize then
    none
  else
    some (UInt32.ofNat (Bytes.toNat (data.take 4)), data.getD 4 0, data.getD 5 0, data.drop 6)

def buildFspEncrypted (header ciphertext : Bytes) (outLen : ℕ) : Option Bytes :=
  if outLen < fspHeaderSize + ciphertext.length then none else some (header ++ ciphertext)

def buildFspDataMessage (S : Suite) (counter : UInt64) (timestampMs : UInt32) (payload : Bytes)
    (key : Block 32) (outLen : ℕ) : Except NoiseError Bytes :=
  match fspPrependInnerHeader timestampMs fspMsgData 0x00 payload 512 with
  | none => .error .bufferTooSmall
  | some inner =>
      let header := buildFspHeader counter 0x00 (inner.length + tagSize)
      match aeadEncrypt S key counter header inner 512 with
      | .error e => .error e
      | .ok ciphertext =>
          match buildFspEncrypted header ciphertext outLen with
          | none => .error .bufferTooSmall
          | some packet => .ok packet

structure FspEncrypted where
  flags : UInt8
  counter : UInt64
  header : Bytes
  payload : Bytes
  deriving DecidableEq

/-- The payload behind the coordinates that `FLAG_COORDS_PRESENT` announces. -/
def skipPresentCoords (payload : Bytes) : Option Bytes :=
  let remaining := payload.length
  if remaining < 2 then
    none
  else
    let afterSrc := 2 + Bytes.toNat (payload.take 2) * 16
    if remaining < afterSrc + 2 then
      none
    else
      let afterDst := afterSrc + 2 + Bytes.toNat (Bytes.slice afterSrc (afterSrc + 2) payload) * 16
      if remaining < afterDst then none else some (payload.drop afterDst)

def parseFspEncryptedHeader (data : Bytes) : Option FspEncrypted :=
  if data.length < fspEncryptedMinSize then
    none
  else if data.getD 0 0 >>> 4 ≠ 0 ∨ data.getD 0 0 &&& 0x0F ≠ Phase.established.toUInt8 then
    none
  else
    let flags := data.getD 1 0
    let counter := UInt64.ofNat (Bytes.toNat (Bytes.slice 4 12 data))
    let header := data.take fspHeaderSize
    let payload := data.drop fspHeaderSize
    if flags &&& flagCoordsPresent ≠ 0 then
      match skipPresentCoords payload with
      | none => none
      | some payload => some { flags, counter, header, payload }
    else
      some { flags, counter, header, payload }

end Session
end Microfips

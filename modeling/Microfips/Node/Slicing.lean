import Microfips.Data.Slice
import Microfips.Node.Slot

/-!
# The slices of the receive path

The functions of `fips-fmp`, `microfips-core`, `fips-noise` and `node.rs` that cut received bytes,
with each of their indices and slices as a read that panics outside the bounds.  Each of them
checks a length first, and returns what the function of the same name in the model returns.
-/

namespace Microfips
namespace Node
namespace Sliced

open Noise Wire Mmp Bytes

abbrev Read (α : Type) : Type := Except (Fault Empty) α

/-! ## Frames -/

def parsePrefix (build : Build) (data : Bytes) : Read (Option (UInt8 × UInt8)) :=
  if data.length < commonPrefixSize then
    .ok none
  else do
    let verPhase ← index data 0
    let flags ← index data 1
    let _payloadLen ← indices data 2 2
    if verPhase >>> 4 ≠ fmpVersion build then return none
    else return some (verPhase &&& 0x0F, flags)

def parseCommonPrefix (data : Bytes) : Read (Option (UInt8 × ℕ)) :=
  if data.length < commonPrefixSize then
    .ok none
  else do
    let verPhase ← index data 0
    let payloadLen ← indices data 2 2
    return some (verPhase &&& 0x0F, toNat payloadLen)

def parseEncryptedHeader (build : Build) (data : Bytes) : Read (Option EncryptedHeader) :=
  if data.length < establishedHeaderSize then
    .ok none
  else do
    match ← parsePrefix build data with
    | none => return none
    | some (phase, _) =>
        if phase ≠ FmpPhase.established.toUInt8 then
          return none
        else
          let receiverIdx ← range data 4 8
          let counter ← range data 8 16
          let headerBytes ← rangeTo data establishedHeaderSize
          return some {
            receiverIdx := idxOfBytes receiverIdx
            counter := UInt64.ofNat (toNat counter)
            headerBytes }

def parseMsg1 (payload : Bytes) : Read (Option FmpMessage) :=
  if payload.length < idxSize then
    .ok none
  else do
    let senderIdx ← rangeTo payload idxSize
    let noisePayload ← rangeFrom payload idxSize
    return some (.msg1 (idxOfBytes senderIdx) noisePayload)

def parseAnswer (message : SessionIndex → SessionIndex → Bytes → FmpMessage) (payload : Bytes) :
    Read (Option FmpMessage) :=
  if payload.length < idxSize * 2 then
    .ok none
  else do
    let senderIdx ← rangeTo payload idxSize
    let receiverIdx ← range payload idxSize (idxSize * 2)
    let noisePayload ← rangeFrom payload (idxSize * 2)
    return some (message (idxOfBytes senderIdx) (idxOfBytes receiverIdx) noisePayload)

def parseEstablished (payload : Bytes) : Read (Option FmpMessage) :=
  if payload.length < idxSize + 8 then
    .ok none
  else do
    let receiverIdx ← rangeTo payload idxSize
    let counter ← range payload idxSize (idxSize + 8)
    let encrypted ← rangeFrom payload (idxSize + 8)
    return some (.established (idxOfBytes receiverIdx) (UInt64.ofNat (toNat counter)) encrypted)

def parseMessage (build : Build) (data : Bytes) : Read (Option FmpMessage) := do
  match ← parsePrefix build data with
  | none => return none
  | some (phase, _) =>
      let payload ← rangeFrom data commonPrefixSize
      if phase = FmpPhase.msg1.toUInt8 then parseMsg1 payload
      else if phase = FmpPhase.msg2.toUInt8 then parseAnswer .msg2 payload
      else if phase = FmpPhase.msg3.toUInt8 then parseAnswer .msg3 payload
      else if phase = FmpPhase.established.toUInt8 then parseEstablished payload
      else return none

def stripInnerHeader (plaintext : Bytes) : Read (Option (UInt32 × Bytes)) :=
  if plaintext.length < innerHeaderSize then
    .ok none
  else do
    let timestamp ← indices plaintext 0 4
    let rest ← rangeFrom plaintext 4
    return some (UInt32.ofNat (toNat timestamp), rest)

/-! ## Frames in a buffer -/

def fmpRawFrameSize (build : Build) (data : Bytes) : Read (Option ℕ) := do
  match ← parseCommonPrefix data with
  | none => return none
  | some (phase, payloadLen) =>
      if phase = FmpPhase.msg1.toUInt8 then
        return if data.length < msg1WireSize build then none else some (msg1WireSize build)
      else if phase = FmpPhase.msg2.toUInt8 then
        return handshakeFrameSize data payloadLen (msg2WireSize build)
      else if phase = FmpPhase.msg3.toUInt8 then
        return handshakeFrameSize data payloadLen (msg3WireSize build)
      else
        return none

def extractDatagram (buf : Bytes) (pos avail : ℕ) : Read (Option (Bytes × ℕ)) := do
  match ← parseCommonPrefix (← range buf pos buf.length) with
  | none => return none
  | some (phase, _) =>
      if phase = FmpPhase.established.toUInt8 then
        if avail < establishedHeaderSize + tagSize then return none
        else return some (← range buf pos (pos + avail), pos + avail)
      else
        return none

def extractRawFrame (build : Build) (buf : Bytes) (pos : ℕ) : Read (Option (Bytes × ℕ)) := do
  let avail ← minus buf.length pos
  if avail < commonPrefixSize then
    return none
  else
    match ← fmpRawFrameSize build (← range buf pos buf.length) with
    | some total =>
        if avail < total then return none
        else return some (← range buf pos (pos + total), pos + total)
    | none => extractDatagram buf pos avail

def extractLengthPrefixedFrame (buf : Bytes) (pos : ℕ) : Read (Option (Bytes × ℕ)) := do
  let avail ← minus buf.length pos
  if avail < 2 then
    return none
  else
    let ml := toNat (← indices buf pos 2)
    if ml = 0 ∨ maxFrame < ml then
      return some (← range buf pos pos, pos + min 2 avail)
    else
      let body ← minus avail 2
      if body < ml then return none
      else return some (← range buf (pos + 2) (pos + 2 + ml), pos + 2 + ml)

/-! ## Payloads -/

def pieces (payload : Bytes) (i : ℕ) : List ℕ → Read (List Bytes)
  | [] => do return [← rangeFrom payload i]
  | j :: cuts => do
      let piece ← range payload i j
      let rest ← pieces payload j cuts
      return piece :: rest

def cutMessage (payload : Bytes) (cuts : List ℕ) (long : Bool) : Read (Option (List Bytes)) :=
  if long then do return some (← pieces payload 0 cuts) else .ok none

def cutIkMsg1 (payload : Bytes) : Read (Option (List Bytes)) :=
  cutMessage payload [33 + tagSize] (33 + tagSize + 8 + tagSize ≤ payload.length)

def cutIkMsg2 (payload : Bytes) : Read (Option (List Bytes)) :=
  cutMessage payload [33] (payload.length = 33 + 8 + tagSize)

def cutXxMsg1 (payload : Bytes) : Read (Option (List Bytes)) :=
  cutMessage payload [33] (payload.length = xxHandshakeMsg1Size)

def cutXxMsg2 (payload : Bytes) : Read (Option (List Bytes)) :=
  cutMessage payload [33, 33 + 33 + tagSize] (payload.length = xxHandshakeMsg2Size)

def cutXxMsg3 (payload : Bytes) : Read (Option (List Bytes)) :=
  cutMessage payload [33 + tagSize] (payload.length = xxHandshakeMsg3Size)

def splitHandshakeNoise (payload : Bytes) (baseSize : ℕ) : Read (Bytes × Option Bytes) :=
  if baseSize < payload.length then do
    let base ← rangeTo payload baseSize
    let rest ← rangeFrom payload baseSize
    return (base, some rest)
  else
    .ok (payload, none)

def cutTag (ciphertext : Bytes) : Read (Option (Bytes × Bytes)) :=
  if ciphertext.length < tagSize then
    .ok none
  else do
    let ptLen ← minus ciphertext.length tagSize
    let text ← rangeTo ciphertext ptLen
    let tag ← rangeFrom ciphertext ptLen
    return some (text, tag)

def parseNegotiation (data : Bytes) : Read (Except NegotiationError NegotiationHeader) :=
  if data.length < negotiationHeaderSize then
    .ok (.error .tooShort)
  else do
    let format ← index data 0
    if format ≠ 0 then
      return .error .badFormat
    else
      let versions ← index data 1
      let versionMin := versions >>> 4
      let versionMax := versions &&& 0x0F
      if versionMax < versionMin then
        return .error .badVersionRange
      else
        let features ← range data 2 10
        return .ok { versionMin, versionMax, features := UInt64.ofNat (toNat features) }

def parseEchoRequest (body : Bytes) : Read (Option (Bytes × Bytes × Bytes)) :=
  if body.length < 12 then
    .ok none
  else do
    let ts ← range body 0 8
    let seq ← range body 8 12
    let payload ← rangeFrom body 12
    return some (ts, seq, payload)

def buildReceiverReportResponse (build : Build) (payload : Bytes) : Read FrameAction :=
  if payload.length < 27 then
    .ok .continue
  else do
    let endCtr ← range payload 11 19
    let endTs ← range payload 23 27
    return .sendLinkMessage msgReceiverReport
      (List.replicate 3 0 ++ endCtr ++ List.replicate 16 0 ++ endTs ++
        List.replicate (receiverReportBodySize build - 31) 0)

def decodeSenderReport (payload : Bytes) : Build → Read (Option SenderReport)
  | .ik =>
      if payload.length < senderReportBodySize .ik then
        .ok none
      else do
        let p ← rangeFrom payload 3
        return some {
          intervalStartCounter := UInt64.ofNat (toNat (← range p 0 8))
          intervalEndCounter := UInt64.ofNat (toNat (← range p 8 16))
          intervalStartTimestamp := UInt32.ofNat (toNat (← range p 16 20))
          intervalEndTimestamp := UInt32.ofNat (toNat (← range p 20 24))
          intervalBytesSent := UInt32.ofNat (toNat (← range p 24 28))
          cumulativePacketsSent := UInt64.ofNat (toNat (← range p 28 36))
          cumulativeBytesSent := UInt64.ofNat (toNat (← range p 36 44)) }
  | .xx =>
      if payload.length < senderReportBodySize .xx then
        .ok none
      else do
        let format ← index payload 0
        if format ≠ 0 ∨ payload.length < 3 + 16 then
          return none
        else
          let p ← rangeFrom payload 3
          return some {
            intervalStartCounter := 0
            intervalEndCounter := UInt64.ofNat (toNat (← range p 0 4))
            intervalStartTimestamp := 0
            intervalEndTimestamp := 0
            intervalBytesSent := UInt32.ofNat (toNat (← range p 4 8))
            cumulativePacketsSent := UInt64.ofNat (toNat (← range p 8 16))
            cumulativeBytesSent := 0 }

def decodeReceiverReport (payload : Bytes) : Build → Read (Option ReceiverReport)
  | .ik =>
      if payload.length < receiverReportBodySize .ik then
        .ok none
      else do
        let p ← rangeFrom payload 3
        return some {
          highestCounter := UInt64.ofNat (toNat (← range p 0 8))
          cumulativePacketsRecv := UInt64.ofNat (toNat (← range p 8 16))
          cumulativeBytesRecv := UInt64.ofNat (toNat (← range p 16 24))
          timestampEcho := UInt32.ofNat (toNat (← range p 24 28))
          dwellTime := UInt16.ofNat (toNat (← range p 28 30))
          maxBurstLoss := UInt16.ofNat (toNat (← range p 30 32))
          meanBurstLoss := UInt16.ofNat (toNat (← range p 32 34))
          jitter := UInt32.ofNat (toNat (← range p 36 40))
          ecnCeCount := UInt32.ofNat (toNat (← range p 40 44))
          owdTrend := Int.bmod (toNat (← range p 44 48)) (2 ^ 32)
          burstLossCount := UInt32.ofNat (toNat (← range p 48 52))
          cumulativeReorderCount := UInt32.ofNat (toNat (← range p 52 56))
          intervalPacketsRecv := UInt32.ofNat (toNat (← range p 56 60))
          intervalBytesRecv := UInt32.ofNat (toNat (← range p 60 64)) }
  | .xx =>
      if payload.length < receiverReportBodySize .xx then
        .ok none
      else do
        let format ← index payload 0
        if format ≠ 0 ∨ payload.length < 3 + 50 then
          return none
        else
          let p ← rangeFrom payload 3
          return some {
            highestCounter := UInt64.ofNat (toNat (← range p 6 14))
            cumulativePacketsRecv := UInt64.ofNat (toNat (← range p 14 22))
            cumulativeBytesRecv := UInt64.ofNat (toNat (← range p 22 30))
            timestampEcho := UInt32.ofNat (toNat (← range p 0 4))
            dwellTime := UInt16.ofNat (toNat (← range p 4 6))
            maxBurstLoss := 0
            meanBurstLoss := 0
            jitter := UInt32.ofNat (toNat (← range p 30 34))
            ecnCeCount := UInt32.ofNat (toNat (← range p 34 38))
            owdTrend := Int.bmod (toNat (← range p 38 42)) (2 ^ 32)
            burstLossCount := UInt32.ofNat (toNat (← range p 42 46))
            cumulativeReorderCount := UInt32.ofNat (toNat (← range p 46 50))
            intervalPacketsRecv := 0
            intervalBytesRecv := 0 }

/-! ## Every read is inside the bounds -/

theorem parsePrefix_eq (build : Build) (data : Bytes) :
    parsePrefix build data = .ok (Wire.parsePrefix build data) := by
  rw [parsePrefix, Wire.parsePrefix]
  split
  · rfl
  · rename_i hlen
    simp only [commonPrefixSize, Nat.not_lt] at hlen
    simp only [index_eq_getD (show 0 < data.length by omega),
      index_eq_getD (show 1 < data.length by omega),
      indices_eq_ok (show 2 + 2 ≤ data.length by omega), Except.ok_bind]
    split <;> rfl

theorem parseCommonPrefix_eq (data : Bytes) :
    parseCommonPrefix data = .ok (Wire.parseCommonPrefix data) := by
  rw [parseCommonPrefix, Wire.parseCommonPrefix]
  split
  · rfl
  · rename_i hlen
    simp only [commonPrefixSize, Nat.not_lt] at hlen
    simp only [index_eq_getD (show 0 < data.length by omega),
      indices_eq_ok (show 2 + 2 ≤ data.length by omega), Except.ok_bind]
    rfl

theorem parseEncryptedHeader_eq (build : Build) (data : Bytes) :
    parseEncryptedHeader build data = .ok (EncryptedHeader.parse build data) := by
  rw [parseEncryptedHeader, EncryptedHeader.parse, parsePrefix_eq]
  split
  · rfl
  · rename_i hlen
    simp only [establishedHeaderSize, Nat.not_lt] at hlen
    simp (disch := omega) only [Except.ok_bind, range_eq_ok, rangeTo_eq_ok, establishedHeaderSize]
    cases Wire.parsePrefix build data with
    | none => rfl
    | some p =>
        dsimp only
        split <;> rfl

theorem parseMsg1_eq (payload : Bytes) :
    parseMsg1 payload = .ok (if payload.length < idxSize then none
      else some (.msg1 (idxOfBytes (payload.take idxSize)) (payload.drop idxSize))) := by
  rw [parseMsg1]
  split
  · rfl
  · simp (disch := omega) only [rangeTo_eq_ok, rangeFrom_eq_ok, Except.ok_bind]
    rfl

theorem parseAnswer_eq (message : SessionIndex → SessionIndex → Bytes → FmpMessage)
    (payload : Bytes) :
    parseAnswer message payload = .ok (if payload.length < idxSize * 2 then none
      else some (message (idxOfBytes (payload.take idxSize))
        (idxOfBytes (slice idxSize (idxSize * 2) payload)) (payload.drop (idxSize * 2)))) := by
  rw [parseAnswer]
  split
  · rfl
  · simp (disch := omega) only [range_eq_ok, rangeTo_eq_ok, rangeFrom_eq_ok, Except.ok_bind]
    rfl

theorem parseEstablished_eq (payload : Bytes) :
    parseEstablished payload = .ok (if payload.length < idxSize + 8 then none
      else some (.established (idxOfBytes (payload.take idxSize))
        (UInt64.ofNat (toNat (slice idxSize (idxSize + 8) payload)))
        (payload.drop (idxSize + 8)))) := by
  rw [parseEstablished]
  split
  · rfl
  · simp (disch := omega) only [range_eq_ok, rangeTo_eq_ok, rangeFrom_eq_ok, Except.ok_bind]
    rfl

theorem parseMessage_eq (build : Build) (data : Bytes) :
    parseMessage build data = .ok (Wire.parseMessage build data) := by
  rw [parseMessage, Wire.parseMessage, parsePrefix_eq, Except.ok_bind]
  cases hprefix : Wire.parsePrefix build data with
  | none => rfl
  | some p =>
      have hlen : commonPrefixSize ≤ data.length := by
        by_contra hshort
        rw [Wire.parsePrefix, if_pos (Nat.lt_of_not_le hshort)] at hprefix
        cases hprefix
      simp only [rangeFrom_eq_ok hlen, Except.ok_bind, parseMsg1_eq, parseAnswer_eq,
        parseEstablished_eq]
      split_ifs <;> rfl

theorem stripInnerHeader_eq (plaintext : Bytes) :
    stripInnerHeader plaintext = .ok (Wire.stripInnerHeader plaintext) := by
  rw [stripInnerHeader, Wire.stripInnerHeader]
  split
  · rfl
  · rename_i hlen
    simp only [innerHeaderSize, Nat.not_lt] at hlen
    simp only [indices_eq_ok (show 0 + 4 ≤ plaintext.length by omega),
      rangeFrom_eq_ok (show 4 ≤ plaintext.length by omega), Except.ok_bind]
    rfl

theorem fmpRawFrameSize_eq (build : Build) (data : Bytes) :
    fmpRawFrameSize build data = .ok (Wire.fmpRawFrameSize build data) := by
  rw [fmpRawFrameSize, Wire.fmpRawFrameSize, parseCommonPrefix_eq, Except.ok_bind]
  cases Wire.parseCommonPrefix data with
  | none => rfl
  | some p =>
      dsimp only
      split_ifs <;> rfl

variable {buf : Bytes} {pos : ℕ}

theorem range_add_eq_ok {n : ℕ} (hpos : pos ≤ buf.length) (hn : n ≤ buf.length - pos) :
    (range buf pos (pos + n) : Read Bytes) = .ok ((buf.drop pos).take n) := by
  rw [range_eq_ok (by omega) (by omega), slice, Nat.add_sub_cancel_left]

theorem extractRawFrame_eq (build : Build) (hpos : pos ≤ buf.length) :
    extractRawFrame build buf pos =
      .ok ((Wire.extractRawFrame build (buf.drop pos)).map fun r => (r.1, pos + r.2)) := by
  have hrest : (range buf pos buf.length : Read Bytes) = .ok (buf.drop pos) :=
    rangeFrom_eq_ok hpos
  rw [extractRawFrame, Wire.extractRawFrame, minus_eq_ok hpos, Except.ok_bind, List.length_drop]
  split
  · rfl
  · simp only [hrest, Except.ok_bind, fmpRawFrameSize_eq, extractDatagram, parseCommonPrefix_eq]
    cases Wire.fmpRawFrameSize build (buf.drop pos) with
    | some total =>
        dsimp only
        split
        · rfl
        · rw [range_add_eq_ok hpos (by omega)]
          rfl
    | none =>
        cases Wire.parseCommonPrefix (buf.drop pos) with
        | none => rfl
        | some p =>
            dsimp only
            split
            · split
              · rfl
              · rw [range_add_eq_ok hpos le_rfl, List.take_of_length_le (by simp)]
                rfl
            · rfl

theorem extractLengthPrefixedFrame_eq (hpos : pos ≤ buf.length) :
    extractLengthPrefixedFrame buf pos =
      .ok ((Wire.extractLengthPrefixedFrame (buf.drop pos)).map fun r => (r.1, pos + r.2)) := by
  rw [extractLengthPrefixedFrame, Wire.extractLengthPrefixedFrame, minus_eq_ok hpos,
    Except.ok_bind, List.length_drop]
  split
  · rfl
  · rename_i hlen
    have hml : slice pos (pos + 2) buf = (buf.drop pos).take 2 := by
      rw [slice, Nat.add_sub_cancel_left]
    rw [indices_eq_ok (show pos + 2 ≤ buf.length by omega), Except.ok_bind, hml,
      range_eq_ok le_rfl hpos]
    dsimp only
    split
    · simp [slice]
    · rw [minus_eq_ok (by omega), Except.ok_bind]
      split
      · rfl
      · rw [range_eq_ok (by omega) (by omega), slice, slice, Nat.add_sub_cancel_left,
          Nat.add_sub_cancel_left, List.drop_drop, Nat.add_assoc]
        rfl

theorem exists_pieces {payload : Bytes} {i : ℕ} {cuts : List ℕ}
    (h : (i :: (cuts ++ [payload.length])).IsChain (· ≤ ·)) :
    ∃ ps, pieces payload i cuts = .ok ps := by
  induction cuts generalizing i with
  | nil =>
      have hi : i ≤ payload.length := by simpa using h
      exact ⟨_, by rw [pieces, rangeFrom_eq_ok hi]; rfl⟩
  | cons j cuts ih =>
      rw [List.cons_append, List.isChain_cons_cons] at h
      obtain ⟨ps, hps⟩ := ih h.2
      have hj : j ≤ payload.length := by
        have hall := List.isChain_iff_pairwise.mp h.2
        exact (List.pairwise_cons.mp hall).1 _ (by simp)
      exact ⟨_, by rw [pieces, range_eq_ok h.1 hj, hps]; rfl⟩

theorem exists_cutMessage {payload : Bytes} {cuts : List ℕ} {p : Prop} [Decidable p]
    (h : p → (0 :: (cuts ++ [payload.length])).IsChain (· ≤ ·)) :
    ∃ r, cutMessage payload cuts (decide p) = .ok r := by
  by_cases hp : p
  · obtain ⟨ps, hps⟩ := exists_pieces (h hp)
    exact ⟨some ps, by rw [cutMessage, if_pos (decide_eq_true hp), hps]; rfl⟩
  · exact ⟨none, if_neg (by simp [hp])⟩

theorem splitHandshakeNoise_eq (payload : Bytes) (baseSize : ℕ) :
    splitHandshakeNoise payload baseSize = .ok (Wire.splitHandshakeNoise payload baseSize) := by
  rw [splitHandshakeNoise, Wire.splitHandshakeNoise]
  split
  · simp (disch := omega) only [rangeTo_eq_ok, rangeFrom_eq_ok, Except.ok_bind]
    rfl
  · rfl

theorem cutTag_eq (ciphertext : Bytes) :
    cutTag ciphertext = .ok (if ciphertext.length < tagSize then none
      else some (ciphertext.take (ciphertext.length - tagSize),
        ciphertext.drop (ciphertext.length - tagSize))) := by
  rw [cutTag]
  split
  · rfl
  · simp (disch := omega) only [minus_eq_ok, rangeTo_eq_ok, rangeFrom_eq_ok, Except.ok_bind]
    rfl

theorem parseNegotiation_eq (data : Bytes) :
    parseNegotiation data = .ok (NegotiationHeader.parse data) := by
  rw [parseNegotiation, NegotiationHeader.parse]
  split
  · rfl
  · rename_i hlen
    simp only [negotiationHeaderSize, Nat.not_lt] at hlen
    simp (disch := omega) only [index_eq_getD, range_eq_ok, Except.ok_bind]
    split_ifs <;> rfl

theorem parseEchoRequest_eq (body : Bytes) :
    parseEchoRequest body = .ok (Node.parseEchoRequest body) := by
  rw [parseEchoRequest, Node.parseEchoRequest]
  split
  · rfl
  · simp (disch := omega) only [range_eq_ok, rangeFrom_eq_ok, Except.ok_bind]
    rfl

theorem buildReceiverReportResponse_eq (build : Build) (payload : Bytes) :
    buildReceiverReportResponse build payload =
      .ok (Node.buildReceiverReportResponse build payload) := by
  rw [buildReceiverReportResponse, Node.buildReceiverReportResponse]
  split
  · rfl
  · simp (disch := omega) only [range_eq_ok, Except.ok_bind]
    rfl

theorem decodeSenderReport_eq (payload : Bytes) (build : Build) :
    decodeSenderReport payload build = .ok (SenderReport.decode payload build) := by
  cases build with
  | ik =>
      rw [decodeSenderReport, SenderReport.decode]
      split
      · rfl
      · rename_i hlen
        simp only [senderReportBodySize, Nat.not_lt] at hlen
        have hp : (payload.drop 3).length = payload.length - 3 := List.length_drop
        simp (disch := omega) only [rangeFrom_eq_ok, range_eq_ok, Except.ok_bind]
        rfl
  | xx =>
      rw [decodeSenderReport, SenderReport.decode]
      split
      · rfl
      · rename_i hlen
        simp only [senderReportBodySize, Nat.not_lt] at hlen
        have hp : (payload.drop 3).length = payload.length - 3 := List.length_drop
        have hhead : payload.getD 0 0 = payload.headD 0 := by
          cases payload <;> rfl
        simp (disch := omega) only [index_eq_getD, rangeFrom_eq_ok, range_eq_ok, Except.ok_bind,
          hhead]
        split_ifs <;> rfl

theorem decodeReceiverReport_eq (payload : Bytes) (build : Build) :
    decodeReceiverReport payload build = .ok (ReceiverReport.decode payload build) := by
  cases build with
  | ik =>
      rw [decodeReceiverReport, ReceiverReport.decode]
      split
      · rfl
      · rename_i hlen
        simp only [receiverReportBodySize, Nat.not_lt] at hlen
        have hp : (payload.drop 3).length = payload.length - 3 := List.length_drop
        simp (disch := omega) only [rangeFrom_eq_ok, range_eq_ok, Except.ok_bind]
        rfl
  | xx =>
      rw [decodeReceiverReport, ReceiverReport.decode]
      split
      · rfl
      · rename_i hlen
        simp only [receiverReportBodySize, Nat.not_lt] at hlen
        have hp : (payload.drop 3).length = payload.length - 3 := List.length_drop
        have hhead : payload.getD 0 0 = payload.headD 0 := by
          cases payload <;> rfl
        simp (disch := omega) only [index_eq_getD, rangeFrom_eq_ok, range_eq_ok, Except.ok_bind,
          hhead]
        split_ifs <;> rfl

/-- On the bytes `data` each function of the receive path stays inside the bounds, and returns
what the model says. -/
structure InBounds (build : Build) (data : Bytes) : Prop where
  parseMessage_eq : parseMessage build data = .ok (Wire.parseMessage build data)
  parseEncryptedHeader_eq :
    parseEncryptedHeader build data = .ok (EncryptedHeader.parse build data)
  stripInnerHeader_eq : stripInnerHeader data = .ok (Wire.stripInnerHeader data)
  extractRawFrame_eq : ∀ pos ≤ data.length, extractRawFrame build data pos =
    .ok ((Wire.extractRawFrame build (data.drop pos)).map fun r => (r.1, pos + r.2))
  extractLengthPrefixedFrame_eq : ∀ pos ≤ data.length, extractLengthPrefixedFrame data pos =
    .ok ((Wire.extractLengthPrefixedFrame (data.drop pos)).map fun r => (r.1, pos + r.2))
  exists_cutIkMsg1 : ∃ r, cutIkMsg1 data = .ok r
  exists_cutIkMsg2 : ∃ r, cutIkMsg2 data = .ok r
  exists_cutXxMsg1 : ∃ r, cutXxMsg1 data = .ok r
  exists_cutXxMsg2 : ∃ r, cutXxMsg2 data = .ok r
  exists_cutXxMsg3 : ∃ r, cutXxMsg3 data = .ok r
  exists_cutTag : ∃ r, cutTag data = .ok r
  splitHandshakeNoise_eq : ∀ baseSize,
    splitHandshakeNoise data baseSize = .ok (Wire.splitHandshakeNoise data baseSize)
  parseNegotiation_eq : parseNegotiation data = .ok (NegotiationHeader.parse data)
  parseEchoRequest_eq : parseEchoRequest data = .ok (Node.parseEchoRequest data)
  buildReceiverReportResponse_eq :
    buildReceiverReportResponse build data = .ok (Node.buildReceiverReportResponse build data)
  decodeSenderReport_eq : decodeSenderReport data build = .ok (SenderReport.decode data build)
  decodeReceiverReport_eq :
    decodeReceiverReport data build = .ok (ReceiverReport.decode data build)

theorem inBounds (build : Build) (data : Bytes) : InBounds build data where
  parseMessage_eq := parseMessage_eq build data
  parseEncryptedHeader_eq := parseEncryptedHeader_eq build data
  stripInnerHeader_eq := stripInnerHeader_eq data
  extractRawFrame_eq _ hpos := extractRawFrame_eq build hpos
  extractLengthPrefixedFrame_eq _ hpos := extractLengthPrefixedFrame_eq hpos
  exists_cutIkMsg1 := by
    rw [cutIkMsg1]
    apply exists_cutMessage
    simp [tagSize]
    omega
  exists_cutIkMsg2 := by
    rw [cutIkMsg2]
    apply exists_cutMessage
    simp [tagSize]
    omega
  exists_cutXxMsg1 := by
    rw [cutXxMsg1]
    apply exists_cutMessage
    simp [xxHandshakeMsg1Size]
    omega
  exists_cutXxMsg2 := by
    rw [cutXxMsg2]
    apply exists_cutMessage
    simp [xxHandshakeMsg2Size, tagSize]
    omega
  exists_cutXxMsg3 := by
    rw [cutXxMsg3]
    apply exists_cutMessage
    simp [xxHandshakeMsg3Size, tagSize]
    omega
  exists_cutTag := ⟨_, cutTag_eq data⟩
  splitHandshakeNoise_eq := splitHandshakeNoise_eq data
  parseNegotiation_eq := parseNegotiation_eq data
  parseEchoRequest_eq := parseEchoRequest_eq data
  buildReceiverReportResponse_eq := buildReceiverReportResponse_eq build data
  decodeSenderReport_eq := decodeSenderReport_eq data build
  decodeReceiverReport_eq := decodeReceiverReport_eq data build

end Sliced
end Node
end Microfips

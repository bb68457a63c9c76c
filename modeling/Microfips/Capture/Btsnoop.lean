import Microfips.Data.BigEndian
import Microfips.Data.Hoare
import Microfips.Wire.Frame

/-!
# Bluetooth captures

The capture readers of `fips-decrypt`, file `main.rs`: the records of a btsnoop file, and the frames
in the credit-based channels of the HCI packets that they hold.  Every header carries a length of
its own.  They are all checked against the bytes that are there but one: a signalling command is
believed to hold the data that its length announces, and its channel is read out of bounds where the
packet ends before.

This is a program of the host, with a `usize` of 64 bits.
-/

namespace Microfips
namespace Capture

open Wire

def btsnoopRecordHeaderSize : ℕ := 24

def btsnoopFileHeaderSize : ℕ := 16

def btsnoopDatalinkMonitor : UInt32 := 2001

structure BtsnoopRecord where
  data : Bytes
  flags : UInt32
  deriving DecidableEq

section Records

variable {ε : Type}

def readBtsnoopU32Be (data : Bytes) : Except (Fault ε) UInt32 := do
  let bytes ← data.indices 0 4
  return UInt32.ofNat (Bytes.toNatBe bytes)

def readBtsnoopU64Be (data : Bytes) : Except (Fault ε) UInt64 := do
  let bytes ← data.indices 0 8
  return UInt64.ofNat (Bytes.toNatBe bytes)

def parseRecords (data : Bytes) (offset : ℕ) (records : List BtsnoopRecord) :
    Except (Fault String) (List BtsnoopRecord) :=
  if 2 ^ 64 ≤ offset + btsnoopRecordHeaderSize then
    .error .panic
  else if _h : offset + btsnoopRecordHeaderSize ≤ data.length then do
    let origLen ← readBtsnoopU32Be (← data.range offset (offset + 4))
    let inclLen ← readBtsnoopU32Be (← data.range (offset + 4) (offset + 8))
    let flags ← readBtsnoopU32Be (← data.range (offset + 8) (offset + 12))
    let _drops ← readBtsnoopU32Be (← data.range (offset + 12) (offset + 16))
    let _timestamp ← readBtsnoopU64Be (← data.range (offset + 16) (offset + 24))
    let dataLen := inclLen.toNat
    if inclLen ≠ origLen then
      return records
    else if 2 ^ 64 ≤ offset + btsnoopRecordHeaderSize + dataLen then
      .error .panic
    else if data.length < offset + btsnoopRecordHeaderSize + dataLen then
      return records
    else do
      let recordData ← data.range (offset + btsnoopRecordHeaderSize)
        (offset + btsnoopRecordHeaderSize + dataLen)
      parseRecords data (offset + (btsnoopRecordHeaderSize + dataLen))
        (records ++ [{ data := recordData, flags }])
  else
    return records
  termination_by data.length - offset
  decreasing_by
    rw [btsnoopRecordHeaderSize] at *
    omega

def parseBtsnoopRecords (data : Bytes) : Except (Fault String) (UInt32 × List BtsnoopRecord) :=
  if data.length < btsnoopFileHeaderSize then
    .error (.err "btsnoop file too short for header")
  else do
    let _version ← readBtsnoopU32Be (← data.range 8 12)
    let datalink ← readBtsnoopU32Be (← data.range 12 16)
    let records ← parseRecords data btsnoopFileHeaderSize []
    return (datalink, records)

end Records

section Channels

def hciAclData : UInt8 := 0x02

def l2capSignallingCid : ℕ := 0x0001

def l2capLeSignallingCid : ℕ := 0x0005

def l2capConnReq : UInt8 := 0x02

def l2capLeCreditBasedConnReq : UInt8 := 0x14

/-- The frame that a packet of a credit-based channel begins with, where it is whole: the length of
the SDU, then the length of the frame.  Both readers of such a packet check that it has at least
`least` bytes, each with its own bound. -/
def fmpData (least : ℕ) (payload : Bytes) : Except (Fault Empty) (Option Bytes) :=
  if payload.length < least then
    return none
  else do
    let sduLen ← payload.indexU16 0
    if sduLen = 0 ∨ payload.length < 2 + sduLen then
      return none
    else do
      let inner ← payload.range 2 (2 + sduLen)
      if inner.length < 2 + commonPrefixSize then
        return none
      else do
        let hi ← inner.index 0
        let lo ← inner.index 1
        let fmpLen := 256 * hi.toNat + lo.toNat
        if fmpLen = 0 ∨ inner.length < 2 + fmpLen then
          return none
        else do
          let fmp ← inner.range 2 (2 + fmpLen)
          return some fmp

def tryExtractFmpFromL2capCocCheck (build : Build) (payload : Bytes) :
    Except (Fault Empty) Bool := do
  match ← fmpData (2 + 2 + commonPrefixSize) payload with
  | none => return false
  | some fmp =>
      match parsePrefix build fmp with
      | none => return false
      | some (phase, _) =>
          return phase == FmpPhase.established.toUInt8 || phase == FmpPhase.msg1.toUInt8 ||
            phase == FmpPhase.msg2.toUInt8

def extractFmpFromL2capCoc (build : Build) (payload : Bytes) (out : List Bytes) :
    Except (Fault Empty) (List Bytes) := do
  match ← fmpData (2 + commonPrefixSize) payload with
  | none => return out
  | some fmp =>
      if commonPrefixSize ≤ fmp.length ∧ (parsePrefix build fmp).isSome then return out ++ [fmp]
      else return out

/-- The two branches for connection requests, each with the code and the least length of its own:
the channel in the data behind the header. -/
def noteRequest (request : UInt8) (least : ℕ) (payload : Bytes) (sigOffset : ℕ) (code : UInt8)
    (sigLen : ℕ) (fipsCids : List ℕ) : Except (Fault Empty) (List ℕ) :=
  if code = request ∧ least ≤ sigLen then do
    let scid ← payload.indexU16 (sigOffset + 4 + 2)
    if 0x003F < scid ∧ ¬ fipsCids.contains scid then return fipsCids ++ [scid] else return fipsCids
  else
    return fipsCids

def readSignals (payload : Bytes) (payloadLen sigOffset : ℕ) (fipsCids : List ℕ) :
    Except (Fault Empty) (List ℕ) :=
  if _h : sigOffset + 4 ≤ payloadLen then do
    let code ← payload.index sigOffset
    let _ident ← payload.index (sigOffset + 1)
    let sigLen ← payload.indexU16 (sigOffset + 2)
    let fipsCids ← noteRequest l2capLeCreditBasedConnReq 6 payload sigOffset code sigLen fipsCids
    let fipsCids ← noteRequest l2capConnReq 4 payload sigOffset code sigLen fipsCids
    readSignals payload payloadLen (sigOffset + 4 + sigLen) fipsCids
  else
    return fipsCids
  termination_by payloadLen - sigOffset

def aclData (datalink : UInt32) (record : BtsnoopRecord) : Except (Fault Empty) (Option Bytes) :=
  if record.data.isEmpty then
    return none
  else if datalink = btsnoopDatalinkMonitor then
    let pktType := record.flags >>> 16 &&& 0xff
    if pktType ≠ 0x01 then return none else return some record.data
  else do
    let packetType ← record.data.index 0
    if packetType ≠ hciAclData then
      return none
    else do
      let acl ← record.data.rangeFrom 1
      return some acl

def l2capData (acl : Bytes) : Except (Fault Empty) (Option Bytes) :=
  if acl.length < 4 then
    return none
  else do
    let aclLen ← acl.indexU16 2
    if acl.length < 4 + aclLen then
      return none
    else do
      let l2cap ← acl.range 4 (4 + aclLen)
      if l2cap.length < 4 then return none else return some l2cap

structure Extraction where
  fipsCids : List ℕ
  fmpFrames : List Bytes
  deriving DecidableEq

def extractL2cap (build : Build) (l2cap : Bytes) (x : Extraction) :
    Except (Fault Empty) Extraction := do
  let l2capLen ← l2cap.indexU16 0
  let l2capCid ← l2cap.indexU16 2
  let payload ← l2cap.rangeFrom 4
  let payloadLen := min l2capLen payload.length
  if l2capCid = l2capLeSignallingCid ∨ l2capCid = l2capSignallingCid then do
    let fipsCids ← readSignals payload payloadLen 0 x.fipsCids
    return { x with fipsCids }
  else if l2capCid ≤ 0x003F then
    return x
  else do
    let payload ← payload.rangeTo payloadLen
    if x.fipsCids.contains l2capCid then do
      let fmpFrames ← extractFmpFromL2capCoc build payload x.fmpFrames
      return { x with fmpFrames }
    else if x.fipsCids.isEmpty then do
      let found ← tryExtractFmpFromL2capCocCheck build payload
      if found then do
        let fmpFrames ← extractFmpFromL2capCoc build payload x.fmpFrames
        return { fipsCids := [l2capCid], fmpFrames }
      else
        return x
    else
      return x

def extractRecord (build : Build) (datalink : UInt32) (x : Extraction) (record : BtsnoopRecord) :
    Except (Fault Empty) Extraction := do
  match ← aclData datalink record with
  | none => return x
  | some acl =>
      match ← l2capData acl with
      | none => return x
      | some l2cap => extractL2cap build l2cap x

def extractFmpFromHciH4 (build : Build) (records : List BtsnoopRecord) (datalink : UInt32) :
    Except (Fault Empty) (List Bytes) := do
  let x ← records.foldlM (extractRecord build datalink) ⟨[], []⟩
  return x.fmpFrames

end Channels

section RecordsSafe

variable {ε : Type}

variable {data : Bytes}

theorem safe_readBtsnoopU32Be (h : 4 ≤ data.length) :
    (readBtsnoopU32Be data : Except (Fault ε) UInt32).Safe fun _ => True := by
  rw [readBtsnoopU32Be, Bytes.indices_eq_ok (by omega)]
  trivial

theorem safe_readBtsnoopU64Be (h : 8 ≤ data.length) :
    (readBtsnoopU64Be data : Except (Fault ε) UInt64).Safe fun _ => True := by
  rw [readBtsnoopU64Be, Bytes.indices_eq_ok (by omega)]
  trivial

theorem safe_field32 {i j : ℕ} {α : Type} {Q : α → Prop} {f : UInt32 → Except (Fault ε) α}
    (hij : i + 4 = j) (hj : j ≤ data.length) (hf : ∀ x, (f x).Safe Q) :
    (do let x ← readBtsnoopU32Be (← data.range i j); f x).Safe Q := by
  refine (Bytes.safe_range (by omega) hj).bind fun field hfield => ?_
  refine (safe_readBtsnoopU32Be ?_).bind fun x _ => hf x
  rw [hfield, Bytes.slice_length hj]
  omega

theorem safe_parseRecords (hdata : data.length < 2 ^ 63) (offset : ℕ)
    (hoffset : offset ≤ data.length) (records : List BtsnoopRecord) :
    (parseRecords data offset records).Safe fun _ => True := by
  -- on the bytes that are left
  induction hleft : data.length - offset using Nat.strong_induction_on
    generalizing offset records with
  | _ left ih =>
      rw [parseRecords, btsnoopRecordHeaderSize, if_neg (by omega)]
      split
      · next hheader =>
          refine safe_field32 rfl (by omega) fun origLen => ?_
          refine safe_field32 rfl (by omega) fun inclLen => ?_
          refine safe_field32 rfl (by omega) fun flags => ?_
          refine safe_field32 rfl (by omega) fun drops => ?_
          refine (Bytes.safe_range (by omega) hheader).bind fun field hfield => ?_
          refine (safe_readBtsnoopU64Be ?_).bind fun timestamp _ => ?_
          · rw [hfield, Bytes.slice_length hheader]
            omega
          · have hlen := inclLen.toNat_lt
            dsimp only
            split
            · trivial
            · rw [if_neg (by omega)]
              split
              · trivial
              · refine (Bytes.safe_range (by omega) (by omega)).bind fun recordData _ => ?_
                exact ih _ (by omega) _ (by omega) _ rfl
      · trivial

theorem safe_parseBtsnoopRecords (hdata : data.length < 2 ^ 63) :
    (parseBtsnoopRecords data).Safe fun _ => True := by
  rw [parseBtsnoopRecords, btsnoopFileHeaderSize]
  split
  · trivial
  · refine safe_field32 rfl (by omega) fun version => ?_
    refine safe_field32 rfl (by omega) fun datalink => ?_
    exact (safe_parseRecords hdata 16 (by omega) []).bind fun records _ => trivial

end RecordsSafe

section ChannelsSafe

theorem safe_fmpData {least : ℕ} (hleast : 2 ≤ least) (payload : Bytes) :
    (fmpData least payload).Safe fun _ => True := by
  rw [fmpData, commonPrefixSize]
  split
  · trivial
  · refine (Bytes.safe_indexU16 (by omega)).bind fun sduLen _ => ?_
    split
    · trivial
    · refine (Bytes.safe_range (by omega) (by omega)).bind fun inner _ => ?_
      split
      · trivial
      · refine (Bytes.safe_index (by omega)).bind fun hi _ => ?_
        refine (Bytes.safe_index (by omega)).bind fun lo _ => ?_
        dsimp only
        split
        · trivial
        · exact (Bytes.safe_range (by omega) (by omega)).bind fun fmp _ => trivial

theorem safe_tryExtractFmpFromL2capCocCheck (build : Build) (payload : Bytes) :
    (tryExtractFmpFromL2capCocCheck build payload).Safe fun _ => True := by
  refine (safe_fmpData (by decide) payload).bind fun fmp _ => ?_
  split
  · trivial
  · split <;> trivial

theorem safe_extractFmpFromL2capCoc (build : Build) (payload : Bytes) (out : List Bytes) :
    (extractFmpFromL2capCoc build payload out).Safe fun _ => True := by
  refine (safe_fmpData (by decide) payload).bind fun fmp _ => ?_
  split
  · trivial
  · split <;> trivial

def u16At (b : Bytes) (i : ℕ) : ℕ :=
  (b.getD i 0).toNat + 256 * (b.getD (i + 1) 0).toNat

inductive CommandAt (payload : Bytes) (payloadLen : ℕ) : ℕ → Prop
  | first : CommandAt payload payloadLen 0
  | next {i : ℕ} (h : CommandAt payload payloadLen i) (hheader : i + 4 ≤ payloadLen) :
      CommandAt payload payloadLen (i + 4 + u16At payload (i + 2))

def IsRequest (payload : Bytes) (i : ℕ) : Prop :=
  payload.getD i 0 = l2capLeCreditBasedConnReq ∧ 6 ≤ u16At payload (i + 2) ∨
    payload.getD i 0 = l2capConnReq ∧ 4 ≤ u16At payload (i + 2)

instance (payload : Bytes) (i : ℕ) : Decidable (IsRequest payload i) :=
  inferInstanceAs (Decidable (_ ∨ _))

def RequestsFit (payload : Bytes) (payloadLen : ℕ) : Prop :=
  ∀ i, CommandAt payload payloadLen i → i + 4 ≤ payloadLen → IsRequest payload i →
    i + 8 ≤ payload.length

theorem safe_noteRequest {request : UInt8} {least : ℕ} {payload : Bytes} {sigOffset : ℕ}
    {code : UInt8} {sigLen : ℕ}
    (h : code = request ∧ least ≤ sigLen → sigOffset + 8 ≤ payload.length) (fipsCids : List ℕ) :
    (noteRequest request least payload sigOffset code sigLen fipsCids).Safe fun _ => True := by
  unfold noteRequest
  split
  · next hrequest =>
      have hlen := h hrequest
      refine (Bytes.safe_indexU16 (by omega)).bind fun scid _ => ?_
      split <;> trivial
  · trivial

theorem safe_readSignals {payload : Bytes} {payloadLen : ℕ} (hlen : payloadLen ≤ payload.length)
    (hfit : RequestsFit payload payloadLen) (sigOffset : ℕ)
    (hcommand : CommandAt payload payloadLen sigOffset) (fipsCids : List ℕ) :
    (readSignals payload payloadLen sigOffset fipsCids).Safe fun _ => True := by
  induction hleft : payloadLen - sigOffset using Nat.strong_induction_on
    generalizing sigOffset fipsCids with
  | _ left ih =>
      rw [readSignals]
      split
      · next hheader =>
          refine (Bytes.safe_index (by omega)).bind fun code hcode => ?_
          refine (Bytes.safe_index (by omega)).bind fun ident _ => ?_
          refine (Bytes.safe_indexU16 (by omega)).bind fun sigLen hsigLen => ?_
          have hrequest := hfit sigOffset hcommand hheader
          refine (safe_noteRequest ?_ _).bind fun cids _ => ?_
          · rintro ⟨rfl, hle⟩
            exact hrequest (.inl ⟨hcode.symm, hle.trans_eq hsigLen⟩)
          · refine (safe_noteRequest ?_ _).bind fun cids _ => ?_
            · rintro ⟨rfl, hle⟩
              exact hrequest (.inr ⟨hcode.symm, hle.trans_eq hsigLen⟩)
            · rw [hsigLen]
              exact ih _ (by omega) _ (hcommand.next hheader) _ rfl
      · trivial

theorem safe_aclData (datalink : UInt32) (record : BtsnoopRecord) :
    (aclData datalink record).Safe fun _ => True := by
  unfold aclData
  split
  · trivial
  · next hne =>
      have hpos : 0 < record.data.length := by
        rw [List.isEmpty_iff] at hne
        exact List.length_pos_of_ne_nil hne
      split
      · dsimp only
        split <;> trivial
      · refine (Bytes.safe_index hpos).bind fun packetType _ => ?_
        split
        · trivial
        · rw [Bytes.rangeFrom_eq_ok hpos]
          trivial

theorem safe_l2capData (acl : Bytes) :
    (l2capData acl).Safe fun r => ∀ l2cap, r = some l2cap → 4 ≤ l2cap.length := by
  unfold l2capData
  split
  · rintro _ ⟨⟩
  · refine (Bytes.safe_indexU16 (by omega)).bind fun aclLen _ => ?_
    split
    · rintro _ ⟨⟩
    · refine (Bytes.safe_range (by omega) (by omega)).bind fun l2cap _ => ?_
      split
      · rintro _ ⟨⟩
      · next hlen =>
          rintro _ ⟨⟩
          exact Nat.le_of_not_lt hlen

def SignalsFit (l2cap : Bytes) : Prop :=
  u16At l2cap 2 = l2capLeSignallingCid ∨ u16At l2cap 2 = l2capSignallingCid →
    RequestsFit (l2cap.drop 4) (min (u16At l2cap 0) (l2cap.drop 4).length)

theorem safe_extractL2cap (build : Build) {l2cap : Bytes} (hlen : 4 ≤ l2cap.length)
    (hfit : SignalsFit l2cap) (x : Extraction) :
    (extractL2cap build l2cap x).Safe fun _ => True := by
  refine (Bytes.safe_indexU16 (by omega)).bind fun l2capLen hl2capLen => ?_
  refine (Bytes.safe_indexU16 (by omega)).bind fun l2capCid hl2capCid => ?_
  rw [Bytes.rangeFrom_eq_ok hlen, Except.ok_bind]
  dsimp only
  have hmin : min l2capLen (l2cap.drop 4).length ≤ (l2cap.drop 4).length := Nat.min_le_right _ _
  split
  · next hsignal =>
      rw [hl2capCid] at hsignal
      rw [hl2capLen] at hmin ⊢
      exact (safe_readSignals hmin (hfit hsignal) 0 .first _).bind fun cids _ => trivial
  · split
    · trivial
    · rw [Bytes.rangeTo_eq_ok hmin, Except.ok_bind]
      split
      · exact (safe_extractFmpFromL2capCoc _ _ _).bind fun frames _ => trivial
      · split
        · refine (safe_tryExtractFmpFromL2capCocCheck _ _).bind fun found _ => ?_
          split
          · exact (safe_extractFmpFromL2capCoc _ _ _).bind fun frames _ => trivial
          · trivial
        · trivial

def RecordFits (datalink : UInt32) (record : BtsnoopRecord) : Prop :=
  ∀ acl l2cap, aclData datalink record = .ok (some acl) → l2capData acl = .ok (some l2cap) →
    SignalsFit l2cap

theorem exists_ok_of_safe {α : Type} {x : Except (Fault Empty) α} {Q : α → Prop} (h : x.Safe Q) :
    ∃ a, x = .ok a ∧ Q a := by
  rcases h.cases with hok | ⟨e, -⟩
  · exact hok
  · exact e.elim

theorem safe_extractRecord (build : Build) {datalink : UInt32} {record : BtsnoopRecord}
    (hfit : RecordFits datalink record) (x : Extraction) :
    (extractRecord build datalink x record).Safe fun _ => True := by
  obtain ⟨acl, hacl, -⟩ := exists_ok_of_safe (safe_aclData datalink record)
  rw [extractRecord, hacl, Except.ok_bind]
  cases acl with
  | none => trivial
  | some acl =>
      obtain ⟨l2cap, hl2cap, hlen⟩ := exists_ok_of_safe (safe_l2capData acl)
      dsimp only
      rw [hl2cap, Except.ok_bind]
      cases l2cap with
      | none => trivial
      | some l2cap => exact safe_extractL2cap build (hlen l2cap rfl) (hfit acl l2cap hacl hl2cap) x

theorem safe_extractFmpFromHciH4 (build : Build) {records : List BtsnoopRecord} {datalink : UInt32}
    (hfit : ∀ record ∈ records, RecordFits datalink record) :
    (extractFmpFromHciH4 build records datalink).Safe fun _ => True := by
  have hrun (x : Extraction) :
      (records.foldlM (extractRecord build datalink) x).Safe fun _ => True := by
    induction records generalizing x with
    | nil => trivial
    | cons record records ih =>
        rw [List.forall_mem_cons] at hfit
        rw [List.foldlM_cons]
        exact (safe_extractRecord build hfit.1 x).bind fun x _ => ih hfit.2 x
  exact (hrun ⟨[], []⟩).bind fun x _ => trivial

end ChannelsSafe

def captureOf (packets : List Bytes) : Bytes :=
  [0x62, 0x74, 0x73, 0x6e, 0x6f, 0x6f, 0x70, 0, 0, 0, 0, 1, 0, 0, 3, 0xe9] ++
    packets.flatMap fun packet =>
      Bytes.ofNatBe 4 packet.length ++ Bytes.ofNatBe 4 packet.length ++ List.replicate 16 0 ++
        packet

def requestPacket : Bytes :=
  [2, 0, 0, 18, 0, 14, 0, 5, 0, 0x14, 1, 10, 0, 0x85, 0, 0x40, 0, 0, 1, 0, 1, 1, 0]

def framePacket : Bytes :=
  [2, 0, 0, 12, 0, 8, 0, 0x40, 0, 6, 0, 0, 4, 0, 0, 0, 0]

theorem recordFits_requestPacket : RecordFits 1001 ⟨requestPacket, 0⟩ := by
  intro acl l2cap hacl hl2cap
  have hacl' : aclData 1001 ⟨requestPacket, 0⟩ = .ok (some (requestPacket.drop 1)) := by decide
  cases hacl.symm.trans hacl'
  have hl2cap' : l2capData (requestPacket.drop 1) = .ok (some (requestPacket.drop 5)) := by decide
  cases hl2cap.symm.trans hl2cap'
  -- there is one command, and it is whole
  intro _ i hcommand hheader
  have hsingle : i = 0 ∨ i = 14 := by
    clear hheader
    induction hcommand with
    | first => exact .inl rfl
    | next h hlen ih =>
        rcases ih with rfl | rfl
        · exact .inr (by decide)
        · exact absurd hlen (by decide)
  rcases hsingle with rfl | rfl
  · decide
  · exact absurd hheader (by decide)

theorem recordFits_framePacket : RecordFits 1001 ⟨framePacket, 0⟩ := by
  intro acl l2cap hacl hl2cap
  have hacl' : aclData 1001 ⟨framePacket, 0⟩ = .ok (some (framePacket.drop 1)) := by decide
  cases hacl.symm.trans hacl'
  have hl2cap' : l2capData (framePacket.drop 1) = .ok (some (framePacket.drop 5)) := by decide
  cases hl2cap.symm.trans hl2cap'
  intro hsignal
  exact absurd hsignal (by decide)

end Capture
end Microfips

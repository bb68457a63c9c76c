import Microfips.Noise.Additive
import Microfips.Wire.Frame

/-!
# Link frames are read back

What the builders of `fips-fmp` write, its parsers read: the three handshake messages and the
header of an established frame.
-/

namespace Microfips
namespace Wire

open Noise

@[simp]
theorem idxBytes_length (index : SessionIndex) : (idxBytes index).length = idxSize :=
  Bytes.ofNat_length idxSize _

@[simp]
theorem idxOfBytes_idxBytes (index : SessionIndex) : idxOfBytes (idxBytes index) = index := by
  have hlt : index.toNat < 256 ^ idxSize := index.toNat_lt
  rw [idxOfBytes, idxBytes, Bytes.toNat_ofNat, Nat.mod_eq_of_lt hlt]
  exact UInt32.ofNat_toNat

@[simp]
theorem buildPrefix_length (build : Build) (phase : FmpPhase) (flags : UInt8) (payloadLen : ℕ) :
    (buildPrefix build phase flags payloadLen).length = commonPrefixSize := by
  simp [buildPrefix, commonPrefixSize]

theorem parsePrefix_buildPrefix_append (build : Build) (phase : FmpPhase) (flags : UInt8)
    (payloadLen : ℕ) (rest : Bytes) :
    parsePrefix build (buildPrefix build phase flags payloadLen ++ rest) =
      some (phase.toUInt8, flags) := by
  have hlen : ¬ (buildPrefix build phase flags payloadLen ++ rest).length < commonPrefixSize := by
    simp
  have hversion : (fmpVersion build <<< 4 ||| phase.toUInt8 &&& 0x0F) >>> 4 = fmpVersion build := by
    cases build <;> cases phase <;> rfl
  have hphase : (fmpVersion build <<< 4 ||| phase.toUInt8 &&& 0x0F) &&& 0x0F = phase.toUInt8 := by
    cases build <;> cases phase <;> rfl
  rw [parsePrefix, if_neg hlen]
  simp [buildPrefix, hversion, hphase]

variable {build : Build} {senderIdx receiverIdx : SessionIndex} {np frame : Bytes} {outLen : ℕ}

theorem parseMessage_buildMsg1 (h : buildMsg1 build senderIdx np outLen = some frame) :
    parseMessage build frame = some (.msg1 senderIdx np) := by
  rw [buildMsg1] at h
  split at h
  · cases h
  · obtain rfl := Option.some.inj h
    rw [parseMessage, List.append_assoc, parsePrefix_buildPrefix_append]
    simp [List.drop_left' (buildPrefix_length ..), List.take_left' (idxBytes_length _),
      List.drop_left' (idxBytes_length _)]

theorem parts_of_buildMsg {phase : FmpPhase}
    (h : buildMsg build phase senderIdx receiverIdx np outLen = some frame) :
    parsePrefix build frame = some (phase.toUInt8, 0x00) ∧
      ¬ (frame.drop commonPrefixSize).length < idxSize * 2 ∧
      (frame.drop commonPrefixSize).take idxSize = idxBytes senderIdx ∧
      Bytes.slice idxSize (idxSize * 2) (frame.drop commonPrefixSize) = idxBytes receiverIdx ∧
      (frame.drop commonPrefixSize).drop (idxSize * 2) = np := by
  rw [buildMsg] at h
  split at h
  · cases h
  · obtain rfl := Option.some.inj h
    rw [List.append_assoc, List.append_assoc, List.drop_left' (buildPrefix_length ..)]
    refine ⟨parsePrefix_buildPrefix_append .., by simp; omega, List.take_left' (idxBytes_length _),
      ?_, ?_⟩
    · rw [Bytes.slice, List.drop_left' (idxBytes_length _)]
      exact List.take_left' (idxBytes_length _)
    · rw [← List.append_assoc]
      exact List.drop_left' (by simp; omega)

theorem parseMessage_buildMsg2 (h : buildMsg2 build senderIdx receiverIdx np outLen = some frame) :
    parseMessage build frame = some (.msg2 senderIdx receiverIdx np) := by
  obtain ⟨hphase, hlen, hsender, hreceiver, hnp⟩ := parts_of_buildMsg h
  simp [parseMessage, hphase, hlen, hsender, hreceiver, hnp, FmpPhase.toUInt8, - List.length_drop,
    - List.drop_drop]

theorem parseMessage_buildMsg3 (h : buildMsg3 build senderIdx receiverIdx np outLen = some frame) :
    parseMessage build frame = some (.msg3 senderIdx receiverIdx np) := by
  obtain ⟨hphase, hlen, hsender, hreceiver, hnp⟩ := parts_of_buildMsg h
  simp [parseMessage, hphase, hlen, hsender, hreceiver, hnp, FmpPhase.toUInt8, - List.length_drop,
    - List.drop_drop]

@[simp]
theorem buildEstablishedHeader_length (build : Build) (receiverIdx : SessionIndex)
    (counter : UInt64) (flags : UInt8) (payloadLen : ℕ) :
    (buildEstablishedHeader build receiverIdx counter flags payloadLen).length =
      establishedHeaderSize := by
  simp [buildEstablishedHeader, commonPrefixSize, idxSize, establishedHeaderSize]

theorem parse_buildEstablishedHeader_append (build : Build) (receiverIdx : SessionIndex)
    (counter : UInt64) (flags : UInt8) (payloadLen : ℕ) (encrypted : Bytes) :
    EncryptedHeader.parse build
        (buildEstablishedHeader build receiverIdx counter flags payloadLen ++ encrypted) =
      some {
        receiverIdx
        counter
        headerBytes := buildEstablishedHeader build receiverIdx counter flags payloadLen } := by
  have hcounter : UInt64.ofNat (Bytes.toNat (Bytes.ofNat 8 counter.toNat)) = counter := by
    have hlt : counter.toNat < 256 ^ 8 := counter.toNat_lt
    rw [Bytes.toNat_ofNat, Nat.mod_eq_of_lt hlt]
    exact UInt64.ofNat_toNat
  have hindex : Bytes.slice 4 8
      (buildEstablishedHeader build receiverIdx counter flags payloadLen ++ encrypted) =
      idxBytes receiverIdx := by
    rw [Bytes.slice, buildEstablishedHeader, List.append_assoc, List.append_assoc,
      List.drop_left' (show (buildPrefix ..).length = 4 from buildPrefix_length ..)]
    exact List.take_left' (idxBytes_length _)
  have hslice : Bytes.slice 8 16
      (buildEstablishedHeader build receiverIdx counter flags payloadLen ++ encrypted) =
      Bytes.ofNat 8 counter.toNat := by
    rw [Bytes.slice, buildEstablishedHeader, List.append_assoc,
      List.drop_left' (by simp [commonPrefixSize, idxSize])]
    exact List.take_left' (Bytes.ofNat_length 8 _)
  have hcommon : parsePrefix build
      (buildEstablishedHeader build receiverIdx counter flags payloadLen ++ encrypted) =
      some (FmpPhase.established.toUInt8, flags) := by
    rw [buildEstablishedHeader, List.append_assoc, List.append_assoc]
    exact parsePrefix_buildPrefix_append ..
  rw [EncryptedHeader.parse, if_neg (by simp), hcommon]
  simp only [ne_eq, not_true_eq_false, ↓reduceIte, hindex, hslice, hcounter, idxOfBytes_idxBytes]
  rw [List.take_left' (buildEstablishedHeader_length ..)]

theorem encryptAndAssemble_eq_some (S : Suite) (build : Build) (receiverIdx : SessionIndex)
    (counter : UInt64) (flags : UInt8) {inner : Bytes} (key : Block 32)
    (h : establishedHeaderSize + (inner.length + tagSize) ≤ outLen) :
    encryptAndAssemble S build receiverIdx counter flags inner key outLen =
      some (buildEstablishedHeader build receiverIdx counter flags inner.length ++
        sealBytes S key counter
          (buildEstablishedHeader build receiverIdx counter flags inner.length) inner) := by
  have hroom : inner.length + tagSize ≤ outLen - establishedHeaderSize := by omega
  rw [encryptAndAssemble, if_neg (by omega)]
  simp only [aeadEncrypt_eq_ok hroom]

theorem parseCommonPrefix_buildPrefix_append (build : Build) (phase : FmpPhase) (flags : UInt8)
    {payloadLen : ℕ} (hlen : payloadLen < 256 ^ 2) (rest : Bytes) :
    parseCommonPrefix (buildPrefix build phase flags payloadLen ++ rest) =
      some (phase.toUInt8, payloadLen) := by
  have hphase : (fmpVersion build <<< 4 ||| phase.toUInt8 &&& 0x0F) &&& 0x0F = phase.toUInt8 := by
    cases build <;> cases phase <;> rfl
  have hslice : Bytes.slice 2 4 (buildPrefix build phase flags payloadLen ++ rest) =
      Bytes.ofNat 2 payloadLen := by
    rw [Bytes.slice, buildPrefix]
    exact List.take_left' (Bytes.ofNat_length 2 _)
  rw [parseCommonPrefix, if_neg (by simp), hslice, Bytes.toNat_ofNat, Nat.mod_eq_of_lt hlen]
  simp [buildPrefix, hphase]

theorem extractRawFrame_buildMsg1 (h : buildMsg1 build senderIdx np outLen = some frame)
    (hnp : np.length = handshakeMsg1Size build) :
    extractRawFrame build frame = some (frame, frame.length) := by
  rw [buildMsg1] at h
  split at h
  · cases h
  · obtain rfl := Option.some.inj h
    have hsize : (buildPrefix build .msg1 0x00 (idxSize + np.length) ++ idxBytes senderIdx ++
        np).length = msg1WireSize build := by
      simp [hnp, msg1WireSize, Nat.add_assoc]
    have hraw : fmpRawFrameSize build (buildPrefix build .msg1 0x00 (idxSize + np.length) ++
        idxBytes senderIdx ++ np) = some (msg1WireSize build) := by
      rw [fmpRawFrameSize, List.append_assoc, parseCommonPrefix_buildPrefix_append _ _ _
        (by rw [hnp]; cases build <;> decide), ← List.append_assoc]
      simp only [if_pos, hsize, lt_irrefl, if_false]
    rw [extractRawFrame, hraw, hsize, if_neg (by cases build <;> decide)]
    simp only [lt_irrefl, if_false, ← hsize, List.take_length]

/-- A msg2 or a msg3 is one raw frame if it is long enough, and short enough for the wire. -/
theorem extractRawFrame_buildMsg {phase : FmpPhase} {baseSize : ℕ}
    (hphase : phase = .msg2 ∧ baseSize = handshakeMsg2Size build ∨
      phase = .msg3 ∧ baseSize = handshakeMsg3Size build)
    (h : buildMsg build phase senderIdx receiverIdx np outLen = some frame)
    (hnp : baseSize ≤ np.length) (hmax : frame.length ≤ maxFrame) :
    extractRawFrame build frame = some (frame, frame.length) := by
  rw [buildMsg] at h
  split at h
  · cases h
  · have hframe := Option.some.inj h
    have hsize : frame.length = commonPrefixSize + (idxSize * 2 + np.length) := by
      rw [← hframe]
      simp
      omega
    have hpos : ¬ frame.length < commonPrefixSize := by omega
    have hcommon : parseCommonPrefix frame = some (phase.toUInt8, idxSize * 2 + np.length) := by
      rw [← hframe, List.append_assoc, List.append_assoc]
      refine parseCommonPrefix_buildPrefix_append _ _ _ ?_ _
      simp only [maxFrame] at hmax
      omega
    have hraw : fmpRawFrameSize build frame = some frame.length := by
      rw [fmpRawFrameSize, hcommon]
      obtain ⟨rfl, rfl⟩ | ⟨rfl, rfl⟩ := hphase
      · simp only [FmpPhase.toUInt8, handshakeFrameSize, msg2WireSize, ← hsize]
        rw [if_neg (by decide), if_pos trivial, if_neg]
        omega
      · simp only [FmpPhase.toUInt8, handshakeFrameSize, msg3WireSize, ← hsize]
        rw [if_neg (by decide), if_neg (by decide), if_pos trivial, if_neg]
        omega
    rw [extractRawFrame, if_neg hpos, hraw]
    simp only [lt_irrefl, if_false, List.take_length]

theorem extractRawFrame_established (build : Build) (receiverIdx : SessionIndex) (counter : UInt64)
    (flags : UInt8) {payloadLen : ℕ} (hlen : payloadLen < 256 ^ 2) {encrypted : Bytes}
    (htag : tagSize ≤ encrypted.length) :
    let frame := buildEstablishedHeader build receiverIdx counter flags payloadLen ++ encrypted
    extractRawFrame build frame = some (frame, frame.length) := by
  intro frame
  have hsize : frame.length = establishedHeaderSize + encrypted.length := by
    rw [List.length_append, buildEstablishedHeader_length]
  have hcommon : parseCommonPrefix frame = some (FmpPhase.established.toUInt8, payloadLen) := by
    simp only [frame, buildEstablishedHeader, List.append_assoc]
    exact parseCommonPrefix_buildPrefix_append build .established flags hlen _
  have hraw : fmpRawFrameSize build frame = none := by
    rw [fmpRawFrameSize, hcommon]
    rfl
  have hshort : ¬ frame.length < commonPrefixSize := by
    rw [hsize, establishedHeaderSize, commonPrefixSize]
    omega
  rw [extractRawFrame, if_neg hshort, hraw]
  dsimp only
  rw [hcommon]
  dsimp only
  rw [if_pos rfl, if_neg (by omega)]

theorem parseMessage_established (build : Build) (receiverIdx : SessionIndex) (counter : UInt64)
    (flags : UInt8) (payloadLen : ℕ) (encrypted : Bytes) :
    parseMessage build
        (buildEstablishedHeader build receiverIdx counter flags payloadLen ++ encrypted) =
      some (.established receiverIdx counter encrypted) := by
  have hcounter : UInt64.ofNat (Bytes.toNat (Bytes.ofNat 8 counter.toNat)) = counter := by
    have hlt : counter.toNat < 256 ^ 8 := counter.toNat_lt
    rw [Bytes.toNat_ofNat, Nat.mod_eq_of_lt hlt]
    exact UInt64.ofNat_toNat
  have hdrop : (buildEstablishedHeader build receiverIdx counter flags payloadLen ++
      encrypted).drop commonPrefixSize =
        idxBytes receiverIdx ++ (Bytes.ofNat 8 counter.toNat ++ encrypted) := by
    rw [buildEstablishedHeader, List.append_assoc, List.append_assoc]
    exact List.drop_left' (buildPrefix_length ..)
  have hslice : Bytes.slice idxSize (idxSize + 8)
      (idxBytes receiverIdx ++ (Bytes.ofNat 8 counter.toNat ++ encrypted)) =
        Bytes.ofNat 8 counter.toNat := by
    rw [Bytes.slice, List.drop_left' (idxBytes_length _), Nat.add_sub_cancel_left]
    exact List.take_left' (Bytes.ofNat_length 8 _)
  have hrest : (idxBytes receiverIdx ++ (Bytes.ofNat 8 counter.toNat ++ encrypted)).drop
      (idxSize + 8) = encrypted := by
    rw [← List.append_assoc]
    exact List.drop_left' (by simp [idxSize])
  have hparse : parsePrefix build
      (buildEstablishedHeader build receiverIdx counter flags payloadLen ++ encrypted) =
      some (FmpPhase.established.toUInt8, flags) := by
    rw [buildEstablishedHeader, List.append_assoc, List.append_assoc]
    exact parsePrefix_buildPrefix_append ..
  rw [parseMessage, hparse]
  dsimp only
  rw [if_neg (by decide), if_neg (by decide), if_neg (by decide), if_pos rfl, hdrop, if_neg]
  · rw [List.take_left' (idxBytes_length _), idxOfBytes_idxBytes, hslice, hcounter, hrest]
  · rw [List.length_append, List.length_append, idxBytes_length, Bytes.ofNat_length]
    omega

/-- A datagram that holds exactly this frame is taken whole, and parsed as this message. -/
def Inverts (build : Build) (frame : Bytes) (message : FmpMessage) : Prop :=
  extractRawFrame build frame = some (frame, frame.length) ∧
    parseMessage build frame = some message

/-- Raw framing inverts the builders of all four phases. -/
theorem rawFraming_inverts (S : Suite) (build : Build) :
    (∀ senderIdx np outLen frame, np.length = handshakeMsg1Size build →
      buildMsg1 build senderIdx np outLen = some frame →
        Inverts build frame (.msg1 senderIdx np)) ∧
    (∀ senderIdx receiverIdx np outLen frame, handshakeMsg2Size build ≤ np.length →
      buildMsg2 build senderIdx receiverIdx np outLen = some frame → frame.length ≤ maxFrame →
        Inverts build frame (.msg2 senderIdx receiverIdx np)) ∧
    (∀ senderIdx receiverIdx np outLen frame, handshakeMsg3Size build ≤ np.length →
      buildMsg3 build senderIdx receiverIdx np outLen = some frame → frame.length ≤ maxFrame →
        Inverts build frame (.msg3 senderIdx receiverIdx np)) ∧
    ∀ receiverIdx counter flags inner key outLen frame,
      encryptAndAssemble S build receiverIdx counter flags inner key outLen = some frame →
      frame.length ≤ maxFrame →
        ∃ encrypted, aeadEncrypt S key counter
            (buildEstablishedHeader build receiverIdx counter flags inner.length) inner
            (outLen - establishedHeaderSize) = .ok encrypted ∧
          Inverts build frame (.established receiverIdx counter encrypted) := by
  refine ⟨?_, ?_, ?_, ?_⟩
  · intro senderIdx np outLen frame hnp h
    exact ⟨extractRawFrame_buildMsg1 h hnp, parseMessage_buildMsg1 h⟩
  · intro senderIdx receiverIdx np outLen frame hnp h hmax
    exact ⟨extractRawFrame_buildMsg (.inl ⟨rfl, rfl⟩) h hnp hmax, parseMessage_buildMsg2 h⟩
  · intro senderIdx receiverIdx np outLen frame hnp h hmax
    exact ⟨extractRawFrame_buildMsg (.inr ⟨rfl, rfl⟩) h hnp hmax, parseMessage_buildMsg3 h⟩
  · intro receiverIdx counter flags inner key outLen frame h hmax
    rw [encryptAndAssemble] at h
    split at h
    · cases h
    · dsimp only at h
      split at h
      · cases h
      · rename_i encrypted hseal
        obtain rfl := Option.some.inj h
        have hsealed := aeadEncrypt_length hseal
        rw [List.length_append, buildEstablishedHeader_length, hsealed] at hmax
        simp only [maxFrame, establishedHeaderSize] at hmax
        exact ⟨encrypted, hseal, extractRawFrame_established build receiverIdx counter flags
          (by omega) (by rw [hsealed]; exact Nat.le_add_left _ _), parseMessage_established ..⟩

theorem rawFraming_inverts_msg2 :
    ∃ frame, buildMsg2 .ik 5 6 (List.replicate 60 1) 256 = some frame ∧
      Inverts .ik frame (.msg2 5 6 (List.replicate 60 1)) := by
  obtain ⟨-, hmsg2, -, -⟩ := rawFraming_inverts Additive.suite .ik
  exact ⟨_, rfl, hmsg2 5 6 _ 256 _ (by decide) rfl (by decide)⟩

end Wire
end Microfips

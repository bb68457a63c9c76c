import Microfips.Wire.Roundtrip
import Microfips.Noise.Additive
import Microfips.Node.Slot

/-!
# Sealed frames

A link message that is sealed into an established frame is read back by whoever holds the key and
admits the counter.  The sixteen bytes of the header are the associated data of the cipher, so a
frame whose header was changed on the way is not opened: it fails to parse, or its header is no
longer what it was sealed with.
-/

namespace Microfips
namespace Node

open Noise Wire

/-- Whoever holds the key of a frame, and whose window admits its counter, reads the message that
was sealed. -/
theorem decryptEstablishedFrame_seal {S : Suite} (hS : S.Lawful) (build : Build) {w : ℕ}
    (receiverIdx : SessionIndex) {counter : UInt64} (flags : UInt8) (ts : UInt32) (msgType : UInt8)
    {body : Bytes} (hbody : body.length + innerHeaderSize ≤ maxFrameSize) (key : Block 32)
    {replay : ReplayWindow} (hcheck : replay.check w counter = true) :
    let inner := Bytes.ofNat 4 ts.toNat ++ msgType :: body
    let header := buildEstablishedHeader build receiverIdx counter flags inner.length
    ∃ replay', replay.accept w counter = some replay' ∧
      decryptEstablishedFrame S build w key (header ++ sealBytes S key counter header inner)
        replay = .ok (some {
          counter
          senderTimestamp := ts
          msgType
          payload := body
          frameBytes := (header ++ sealBytes S key counter header inner).length }, replay') := by
  intro inner header
  have hinner : inner.length = body.length + innerHeaderSize := by
    simp [inner, innerHeaderSize]
    omega
  have hheader : EncryptedHeader.parse build (header ++ sealBytes S key counter header inner) =
      some ⟨receiverIdx, counter, header⟩ :=
    parse_buildEstablishedHeader_append build receiverIdx counter flags inner.length _
  have hdrop : (header ++ sealBytes S key counter header inner).drop establishedHeaderSize =
      sealBytes S key counter header inner :=
    List.drop_left' (buildEstablishedHeader_length ..)
  have hstrip : stripInnerHeader inner = some (ts, msgType :: body) := by
    rw [stripInnerHeader, if_neg (by omega), List.take_left' (Bytes.ofNat_length 4 _),
      List.drop_left' (Bytes.ofNat_length 4 _), Bytes.toNat_ofNat]
    simp
  obtain ⟨a, b, c, hparse⟩ := parseMessage_of_parse hheader
  obtain ⟨replay', haccept⟩ := ReplayWindow.exists_accept_of_check hcheck
  rw [decryptEstablishedFrame, hparse]
  simp only [hheader, hcheck, ↓reduceIte, hdrop,
    aeadDecrypt_sealBytes hS key counter header (hinner.trans_le hbody), haccept, hstrip]
  exact ⟨replay', rfl, rfl⟩

/-- The cipher opens what was sealed here only with the nonce and the associated data it was sealed
with. -/
def SealedOnce (S : Suite) (key : Block 32) (counter : UInt64) (aad plain : Bytes) : Prop :=
  ∀ nonce aad' opened,
    S.decrypt key nonce aad' (S.encrypt key (makeNonce counter) aad plain).1
        (S.encrypt key (makeNonce counter) aad plain).2 = some opened →
      nonce = makeNonce counter ∧ aad' = aad

/-- A frame with another header than the one it was sealed with is refused, and the window stays. -/
theorem decryptEstablishedFrame_of_header_ne {S : Suite} {key : Block 32} {counter : UInt64}
    {header header' inner : Bytes} (hideal : SealedOnce S key counter header inner)
    (hlen : header'.length = establishedHeaderSize) (hne : header' ≠ header) (build : Build)
    (w : ℕ) (replay : ReplayWindow) :
    decryptEstablishedFrame S build w key (header' ++ sealBytes S key counter header inner) replay =
      .ok (none, replay) := by
  refine decryptEstablishedFrame_of_not_opens (fun c hopens => ?_) w replay
  rw [Opens, openedCounter] at hopens
  split at hopens
  · cases hopens
  · rename_i enc henc
    rw [EncryptedHeader.headerBytes_of_parse henc, List.take_left' hlen, List.drop_left' hlen]
      at hopens
    split at hopens
    · cases hopens
    · rename_i plain hplain
      exact hne (hideal _ _ _ (decrypt_of_aeadDecrypt_sealBytes hplain)).2

/-- A link message whose sealed frame has at most `MAX_FRAME` bytes is sealed in every buffer that
holds it.  With the same key and a window that admits its counter the frame opens to exactly the
counter, the timestamp, the type and the body that went into it; with any byte of its header changed
it is refused, and the window stays. -/
theorem sealed_frame_opens {S : Suite} (hS : S.Lawful) (build : Build) (key : Block 32)
    (receiverIdx : SessionIndex) (counter : UInt64) (flags : UInt8) (ts : UInt32) (msgType : UInt8)
    {body : Bytes}
    (hfits : establishedHeaderSize + (innerHeaderSize + body.length + tagSize) ≤ maxFrame)
    {innerLen outLen : ℕ} (hinner : innerHeaderSize + body.length ≤ innerLen)
    (hout : establishedHeaderSize + (innerHeaderSize + body.length + tagSize) ≤ outLen) :
    ∃ inner frame, prependInnerHeader ts (msgType :: body) innerLen = some inner ∧
      encryptAndAssemble S build receiverIdx counter flags inner key outLen = some frame ∧
      (∀ w (replay : ReplayWindow), replay.check w counter = true →
        ∃ replay', replay.accept w counter = some replay' ∧
          decryptEstablishedFrame S build w key frame replay = .ok (some {
            counter
            senderTimestamp := ts
            msgType
            payload := body
            frameBytes := frame.length }, replay')) ∧
      (SealedOnce S key counter (frame.take establishedHeaderSize) inner →
        ∀ w (replay : ReplayWindow) i b, i < establishedHeaderSize → b ≠ frame.getD i 0 →
          decryptEstablishedFrame S build w key (frame.set i b) replay = .ok (none, replay)) := by
  obtain ⟨inner, hdef⟩ : ∃ inner, Bytes.ofNat 4 ts.toNat ++ msgType :: body = inner := ⟨_, rfl⟩
  have hlen : inner.length = innerHeaderSize + body.length := by
    rw [← hdef]
    simp [innerHeaderSize]
    omega
  obtain ⟨header, hheader⟩ :
      ∃ header, buildEstablishedHeader build receiverIdx counter flags inner.length = header :=
    ⟨_, rfl⟩
  have hsize : header.length = establishedHeaderSize := hheader ▸ buildEstablishedHeader_length ..
  refine ⟨inner, header ++ sealBytes S key counter header inner, ?_, ?_, ?_, ?_⟩
  · rw [prependInnerHeader, if_neg (by simp [innerHeaderSize] at hinner ⊢; omega), hdef]
  · rw [encryptAndAssemble_eq_some S build receiverIdx counter flags key (hlen.symm ▸ hout),
      hheader]
  · intro w replay hcheck
    have hbody : body.length + innerHeaderSize ≤ maxFrameSize := by
      simp only [maxFrame, maxFrameSize] at hfits ⊢
      omega
    have hopen :=
      decryptEstablishedFrame_seal hS build receiverIdx flags ts msgType hbody key hcheck
    simp only [hdef, hheader] at hopen
    exact hopen
  · intro hideal w replay i b hi hb
    rw [List.take_left' hsize] at hideal
    have hi' : i < header.length := hsize.symm ▸ hi
    rw [List.set_append_left _ _ hi']
    refine decryptEstablishedFrame_of_header_ne hideal (by rw [List.length_set, hsize]) ?_ build w
      replay
    intro heq
    refine hb ?_
    have hget := congrArg (fun l => l.getD i 0) heq
    simp only [List.getD_eq_getElem?_getD, List.getElem?_set_self hi', Option.getD_some] at hget
    rw [hget, List.getD_eq_getElem?_getD, List.getElem?_append_left hi']

section Sample

def sampleInner : Bytes := [0xe8, 0x03, 0, 0, 0x10, 1, 2, 3]

def sampleHeader : Bytes :=
  buildEstablishedHeader .ik 7 5 flagKeyEpoch sampleInner.length

def sampleSuite : Suite :=
  Additive.pinned (makeNonce 5) sampleHeader

def sampleFrame : Bytes :=
  sampleHeader ++ sampleInner ++ List.replicate 16 1

theorem sealedOnce_sample (key : Block 32) :
    SealedOnce sampleSuite key 5 sampleHeader sampleInner := by
  intro nonce aad opened h
  by_contra hne
  simp [sampleSuite, Additive.pinned, hne, Block.replicate] at h

/-- The message is read back from its frame, and refused once the phase of the frame is changed. -/
theorem sealed_frame_opens_sample :
    prependInnerHeader 1000 [0x10, 1, 2, 3] 16 = some sampleInner ∧
      encryptAndAssemble sampleSuite .ik 7 5 flagKeyEpoch sampleInner (Block.replicate 32 9) 64 =
        some sampleFrame ∧
      (∃ replay, decryptEstablishedFrame sampleSuite .ik 64 (Block.replicate 32 9) sampleFrame
        ReplayWindow.new = .ok (some ⟨5, 1000, 0x10, [1, 2, 3], 40⟩, replay)) ∧
      decryptEstablishedFrame sampleSuite .ik 64 (Block.replicate 32 9) (sampleFrame.set 0 1)
        ReplayWindow.new = .ok (none, ReplayWindow.new) := by
  have hsealed : prependInnerHeader 1000 [0x10, 1, 2, 3] 16 = some sampleInner ∧
      encryptAndAssemble sampleSuite .ik 7 5 flagKeyEpoch sampleInner (Block.replicate 32 9) 64 =
        some sampleFrame ∧ sampleFrame.take establishedHeaderSize = sampleHeader := by
    decide +kernel
  have hinner : innerHeaderSize + ([1, 2, 3] : Bytes).length ≤ 16 := by decide
  have hout : establishedHeaderSize + (innerHeaderSize + ([1, 2, 3] : Bytes).length + tagSize) ≤
      64 := by decide
  obtain ⟨inner, frame, hinner, hframe, hopens, hrefused⟩ :=
    sealed_frame_opens (Additive.pinned_lawful (makeNonce 5) sampleHeader) .ik
      (Block.replicate 32 9) 7 5 flagKeyEpoch 1000 0x10 (hout.trans (by decide)) hinner hout
  obtain rfl := Option.some.inj (hsealed.1.symm.trans hinner)
  obtain rfl := Option.some.inj (hsealed.2.1.symm.trans hframe)
  refine ⟨hsealed.1, hsealed.2.1, ?_, ?_⟩
  · obtain ⟨replay, -, hopen⟩ := hopens 64 ReplayWindow.new (by decide)
    exact ⟨replay, hopen⟩
  · refine hrefused ?_ 64 ReplayWindow.new 0 1 (by decide) (by decide)
    rw [hsealed.2.2]
    exact sealedOnce_sample _

end Sample

end Node
end Microfips

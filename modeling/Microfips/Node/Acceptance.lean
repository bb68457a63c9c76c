import Microfips.Node.Negotiated

/-!
# What a handshake accepts and a rekey refuses

The first handshake of the XX build splits the negotiation payload off msg2 and msg3 before it
reads them.  The rekey branches of `steady` hand the whole payload, cut at 128 bytes for msg2, to
`read_message2` and `read_message3`, which take nothing but the fixed Noise part.  On a payload
without a negotiation block the two agree, and the keys are the same: the payloads that the first
handshake seals behind msg3 change the transcript and the nonce, but not the chaining key.
-/

namespace Microfips
namespace Noise
namespace NoiseXxInitiator

open SymmetricState

theorem writeMessage3_of_run {S : Suite} {self t : NoiseXxInitiator} {static : Block 33}
    {epoch : Block 8} {outLen outLen' : ℕ} {m : Bytes} (hk : self.sym.k.isSome = true)
    (h : (writeMessage3 S static epoch outLen).run self = .ok m t) (hroom : 73 ≤ outLen') :
    (writeMessage3 S static epoch outLen').run self = .ok m t := by
  have hlong : ¬ outLen < xxHandshakeMsg3Size := by
    intro hlt
    rw [writeMessage3, if_pos hlt] at h
    cases h
  have hlen : 73 ≤ outLen := Nat.le_of_not_lt hlong
  cases hre : self.rePub with
  | none =>
      rw [writeMessage3, if_neg hlong, EStateM.run_get_bind, hre] at h
      cases h
  | some rePub =>
      cases hse : xOnlyEcdh S self.sPriv rePub with
      | error e =>
          have hroom' : static.bytes.length + 16 ≤ outLen := by
            rw [static.length_eq]
            omega
          rw [writeMessage3, if_neg hlong, EStateM.run_get_bind, hre] at h
          simp [onSym, encryptAndHash_run hk hroom', hse] at h
      | ok se =>
          rw [writeMessage3_run hk hre hse static epoch hlen] at h
          rw [writeMessage3_run hk hre hse static epoch hroom]
          exact h

theorem finalize_encryptPayload {S : Suite} {self t : NoiseXxInitiator} {plaintext c : Bytes}
    {outLen : ℕ} (h : (encryptPayload S plaintext outLen).run self = .ok c t) :
    t.finalize S = self.finalize S := by
  have hleaves : EStateM.Leaves SymmetricState.ck (encryptAndHash S plaintext outLen) := by
    refine .get_bind fun s => ?_
    cases s.k with
    | none => rfl
    | some k =>
        cases hseal : aeadEncrypt S k s.n [] plaintext outLen with
        | error e => simp [EStateM.LeavesAt, hseal]
        | ok c => simp [EStateM.LeavesAt, hseal, absorb, SymmetricState.mixHash]
  have hck := hleaves self.sym
  rw [encryptPayload, onSym, EStateM.zoom_run] at h
  rw [EStateM.LeavesAt] at hck
  cases hrun : (encryptAndHash S plaintext outLen).run self.sym with
  | error e sym =>
      rw [hrun] at h
      cases h
  | ok c' sym =>
      rw [hrun] at h hck
      obtain ⟨-, rfl⟩ := EStateM.Result.ok.inj h
      exact congrArg (S.hkdf · []) hck

end NoiseXxInitiator
end Noise

namespace Node

open Noise Wire EStateM

variable {H M : Type} {C : Config H M}

variable {s t : Handshake H}

theorem Handshake.sendMsg3_keys {o : Opening} {hs hs' : NoiseXxInitiator} {senderIdx : SessionIndex}
    (hk : hs.sym.k.isSome = true) (h : (Handshake.sendMsg3 C o hs senderIdx).run s = .ok hs' t) :
    ∃ m hs'', (NoiseXxInitiator.writeMessage3 C.suite o.myPub C.epoch 128).run hs = .ok m hs'' ∧
      m.length = 73 ∧ hs''.finalize C.suite = hs'.finalize C.suite := by
  rw [Handshake.sendMsg3] at h
  obtain ⟨n3, s₁, hwrite, hrest₁⟩ := exists_of_run_bind h
  obtain ⟨neg, s₂, -, hrest₂⟩ := exists_of_run_bind hrest₁
  obtain ⟨sealedNeg, s₃, hseal, hrest₃⟩ := exists_of_run_bind hrest₂
  obtain ⟨msg3, s₄, -, hrest₄⟩ := exists_of_run_bind hrest₃
  obtain ⟨_, s₅, -, hpure⟩ := exists_of_run_bind hrest₄
  obtain ⟨rfl, -⟩ := Result.ok.inj hpure
  have hrun := NoiseXxInitiator.writeMessage3_of_run hk
    (Handshake.within_run hwrite).1 (show 73 ≤ 128 by decide)
  refine ⟨n3.1, n3.2, hrun, ?_, ?_⟩
  · exact ((NoiseXxInitiator.meets_writeMessage3 hk _ _ _).of_run_ok hrun).2
  · exact (NoiseXxInitiator.finalize_encryptPayload (Handshake.within_run hseal).1).symm

/-- A msg2 without a negotiation block that completes a handshake completes a rekey in the same
Noise state, with the same keys. -/
theorem completion_of_completeXx {o : Opening} {hs : NoiseXxInitiator} {senderIdx : SessionIndex}
    {np : Bytes} {outcome : Outcome} {ri : RekeyInit}
    (hpub : ecdhPubkey C.suite C.nsec = .ok o.myPub) (hri : ri.hs = .xx hs)
    (hbare : np.length ≤ xxHandshakeMsg2Size)
    (h : (Handshake.completeXx C o hs senderIdx np).run s = .ok outcome t) :
    outcome.them = senderIdx ∧
      ∃ frames, completion C ri senderIdx (np.take 128) =
        some ((outcome.ks, outcome.kr), frames) := by
  have hsplit : splitMsg2Noise np = (np, none) := if_neg (Nat.not_lt.mpr hbare)
  have htake : np.take 128 = np := List.take_of_length_le (hbare.trans (by decide))
  rw [Handshake.completeXx, hsplit] at h
  obtain ⟨r, s₁, hread, hrest⟩ := exists_of_run_bind h
  obtain ⟨hread, -⟩ := Handshake.within_run hread
  split at hrest
  · rename_i hpin
    obtain ⟨hs', s₂, hnone, hrest'⟩ := exists_of_run_bind hrest
    obtain ⟨rfl, rfl⟩ := Result.ok.inj hnone
    obtain ⟨hs₃, s₃, hsend, hpure⟩ := exists_of_run_bind hrest'
    obtain ⟨rfl, -⟩ := Result.ok.inj hpure
    have hk := (NoiseXxInitiator.meets_readMessage2 _).of_run_ok hread
    obtain ⟨m, hs₄, hwrite, hlen, hkeys⟩ := Handshake.sendMsg3_keys hk hsend
    obtain ⟨msg3, hmsg3⟩ : ∃ msg3, buildMsg3 C.build ri.ourIndex senderIdx m 256 = some msg3 := by
      rw [buildMsg3, buildMsg, if_neg]
      · exact ⟨_, rfl⟩
      · rw [hlen]
        decide
    refine ⟨rfl, [msg3], ?_⟩
    rw [completion, hri, htake]
    simp [EStateM.call_eq_ok hread, hpin, hpub, EStateM.call_eq_ok hwrite, hmsg3, hkeys]
  · cases hrest

theorem xxAccept_of_acceptMsg3 {a : Answering} {np : Bytes} {outcome : Outcome} {hs : RekeyHs}
    (hhs : hs.responder = a.responder) (hbare : np.length ≤ xxHandshakeMsg3Size)
    (h : (Handshake.acceptMsg3 C a np).run s = .ok outcome t) :
    outcome.them = a.peerSenderIdx ∧ xxAccept C hs np = some (outcome.ks, outcome.kr) := by
  have hsplit : splitMsg3Noise np = (np, none) := if_neg (Nat.not_lt.mpr hbare)
  rw [Handshake.acceptMsg3, hsplit] at h
  obtain ⟨r, s₁, hread, hrest⟩ := exists_of_run_bind h
  obtain ⟨hread, -⟩ := Handshake.within_run hread
  obtain ⟨responder, s₂, hnone, hrest'⟩ := exists_of_run_bind hrest
  obtain ⟨rfl, rfl⟩ := Result.ok.inj hnone
  split at hrest'
  · rename_i hpin
    obtain ⟨rfl, -⟩ := Result.ok.inj hrest'
    refine ⟨rfl, ?_⟩
    rw [xxAccept, hhs]
    simp [EStateM.call_eq_ok hread, hpin]
  · cases hrest'

namespace Scenario

def noisePart (frame : Bytes) : Bytes :=
  match parseMessage .xx frame with
  | some (.msg1 _ noisePayload) => noisePayload
  | some (.msg2 _ _ noisePayload) => noisePayload
  | some (.msg3 _ _ noisePayload) => noisePayload
  | _ => []

def opening? : Result (Fault ProtocolError) (Handshake PUnit) Phase →
    Option (Opening × NoiseXxInitiator)
  | .ok (.opening o) _ =>
      match o.initiator with
      | .xx hs => some (o, hs)
      | .ik _ => none
  | _ => none

def aliceOpening : Opening × NoiseXxInitiator :=
  (opening? ((Handshake.begin aliceXx).run (fresh false))).get (by decide +kernel)

def aliceRekey : RekeyInit where
  hs := .xx aliceOpening.2
  ourIndex := aliceOpening.1.ourIndex
  msg1 := aliceOpening.1.msg1
  resends := 0
  nextResendAt := 0

def answering? : Result (Fault ProtocolError) (Handshake PUnit) (Progress × List Reception) →
    Option Answering
  | .ok (.waits (.answering a), _) _ => some a
  | _ => none

def bobAnswering : Answering :=
  (answering? ((Handshake.run bobFull [.chunk xxMsg1]).run (fresh true))).get (by decide +kernel)

def bobRekey : RekeyHs where
  responder := bobAnswering.responder
  ourIndex := 300
  theirIdx := bobAnswering.peerSenderIdx

def xxMsg3 : Bytes := lastOf aliceXx false [.chunk xxMsg2]

def bareMsg3 : Bytes := (noisePart xxMsg3).take xxHandshakeMsg3Size

end Scenario

end Node
end Microfips

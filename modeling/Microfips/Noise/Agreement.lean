import Microfips.Noise.Additive
import Microfips.Noise.IK
import Microfips.Noise.XK
import Microfips.Noise.XX

/-!
# Agreement of the handshakes

The initiator and the responder of each pattern are run against each other, every message
handed over unchanged.  Each read then succeeds, both sides end in the same symmetric state
up to the transcript, and so derive the same pair of transport keys.
-/

namespace Microfips
namespace Noise

open SymmetricState

structure Outcome where
  initiatorKeys : Block 32 × Block 32
  responderKeys : Block 32 × Block 32
  /-- The initiator's epoch, as the responder read it. -/
  initiatorEpoch : Block 8
  /-- The responder's epoch, as the initiator read it. -/
  responderEpoch : Block 8
  /-- The initiator's static key, as the responder read it. -/
  initiatorStatic : Block 33
  deriving DecidableEq

def ikExchange {S : Suite} (si ei sr er : Keypair S) (rs : HeldKey sr) (epochI epochR : Block 8)
    (outLen : ℕ) : Except (Fault NoiseError) Outcome := do
  let (i, _) ← Fault.lift (NoiseIkInitiator.new S ei.secret si.secret rs.pub)
  let (msg1, i) ← (NoiseIkInitiator.writeMessage1 S si.pub epochI outLen).call i
  let r ← Fault.lift (NoiseIkResponder.new S sr.secret (Block.ofBytes 33 (msg1.take 33)))
  let ((static, epoch1), r) ← (NoiseIkResponder.readMessage1 S (msg1.drop 33)).call r
  let (msg2, r) ← (NoiseIkResponder.writeMessage2 S er.secret epochR outLen).call r
  let (epoch2, i) ← (NoiseIkInitiator.readMessage2 S msg2).call i
  return {
    initiatorKeys := i.finalize S
    responderKeys := r.finalize S
    initiatorEpoch := epoch1
    responderEpoch := epoch2
    initiatorStatic := static }

def xkExchange {S : Suite} (si ei sr er : Keypair S) (rs : HeldKey sr) (epochI epochR : Block 8)
    (outLen : ℕ) : Except (Fault NoiseError) Outcome := do
  let (i, _) ← Fault.lift (NoiseXkInitiator.new S ei.secret si.secret rs.pub)
  let (msg1, i) ← (NoiseXkInitiator.writeMessage1 S outLen).call i
  let r ← Fault.lift (NoiseXkResponder.new S sr.secret (Block.ofBytes 33 (msg1.take 33)))
  let (msg2, r) ← (NoiseXkResponder.writeMessage2 S er.secret epochR outLen).call r
  let (epoch2, i) ← (NoiseXkInitiator.readMessage2 S msg2).call i
  let (msg3, i) ← (NoiseXkInitiator.writeMessage3 S si.pub epochI outLen).call i
  let ((static, epoch3), r) ← (NoiseXkResponder.readMessage3 S msg3).call r
  return {
    initiatorKeys := i.finalize S
    responderKeys := r.finalize S
    initiatorEpoch := epoch3
    responderEpoch := epoch2
    initiatorStatic := static }

/-- What both sides of a completed XX exchange hold besides: the responder's static key and
the two negotiation payloads, as they were read. -/
structure XxOutcome extends Outcome where
  responderStatic : Block 33
  payload2 : Option Bytes
  payload3 : Option Bytes
  deriving DecidableEq

def appendPayload {σ : Type} (encrypt : Bytes → EStateM (Fault NoiseError) σ Bytes)
    (payload : Option Bytes) (msg : Bytes) : EStateM (Fault NoiseError) σ Bytes :=
  match payload with
  | none => return msg
  | some p => return msg ++ (← encrypt p)

def readPayload {σ : Type} (decrypt : Bytes → EStateM (Fault NoiseError) σ Bytes)
    (rest : Bytes) : EStateM (Fault NoiseError) σ (Option Bytes) :=
  if rest.isEmpty then return none else return some (← decrypt rest)

/-- An XX exchange with message buffers of `outLen` bytes; payloads are sealed into `encLen`
bytes and opened into `decLen` bytes. -/
def xxExchange {S : Suite} (si ei sr er : Keypair S) (epochI epochR : Block 8)
    (neg2 neg3 : Option Bytes) (outLen encLen decLen : ℕ) :
    Except (Fault NoiseError) XxOutcome := do
  let (i, _) ← Fault.lift (NoiseXxInitiator.new S ei.secret si.secret)
  let (msg1, i) ← (NoiseXxInitiator.writeMessage1 S outLen).call i
  let r ← Fault.lift (NoiseXxResponder.new S sr.secret)
  let (_, r) ← (NoiseXxResponder.readMessage1 S msg1).call r
  let (msg2, r) ← (NoiseXxResponder.writeMessage2 S er.secret epochR outLen).call r
  let (msg2, r) ← (appendPayload (NoiseXxResponder.encryptPayload S · encLen) neg2 msg2).call r
  let ((responderStatic, epoch2), i) ←
    (NoiseXxInitiator.readMessage2 S (msg2.take xxHandshakeMsg2Size)).call i
  let (payload2, i) ← (readPayload (NoiseXxInitiator.decryptPayload S · decLen)
    (msg2.drop xxHandshakeMsg2Size)).call i
  let (msg3, i) ← (NoiseXxInitiator.writeMessage3 S si.pub epochI outLen).call i
  let (msg3, i) ← (appendPayload (NoiseXxInitiator.encryptPayload S · encLen) neg3 msg3).call i
  let ((static, epoch3), r) ←
    (NoiseXxResponder.readMessage3 S (msg3.take xxHandshakeMsg3Size)).call r
  let (payload3, r) ← (readPayload (NoiseXxResponder.decryptPayload S · decLen)
    (msg3.drop xxHandshakeMsg3Size)).call r
  return {
    initiatorKeys := i.finalize S
    responderKeys := r.finalize S
    initiatorEpoch := epoch3
    responderEpoch := epoch2
    initiatorStatic := static
    responderStatic := responderStatic
    payload2 := payload2
    payload3 := payload3 }

/-! ### Negotiation payloads -/

def sealedPayload (S : Suite) (payload : Option Bytes) (s : SymmetricState) : Bytes :=
  payload.elim [] (sealed S · s)

def afterPayload (S : Suite) (payload : Option Bytes) (s : SymmetricState) : SymmetricState :=
  payload.elim s (afterSealed S · s)

@[simp]
theorem afterPayload_isSome_k (S : Suite) (payload : Option Bytes) (s : SymmetricState) :
    (afterPayload S payload s).k.isSome = s.k.isSome := by
  cases payload <;> simp [afterPayload]

section Payload

variable {S : Suite} {σ : Type} {put : SymmetricState → σ} {s : SymmetricState}
  {payload : Option Bytes}

theorem appendPayload_run {encrypt : Bytes → EStateM (Fault NoiseError) σ Bytes}
    (henc : ∀ p ∈ payload, (encrypt p).run (put s) = .ok (sealed S p s) (put (afterSealed S p s)))
    (msg : Bytes) :
    (appendPayload encrypt payload msg).run (put s) =
      .ok (msg ++ sealedPayload S payload s) (put (afterPayload S payload s)) := by
  cases payload with
  | none =>
      simp [appendPayload, sealedPayload, afterPayload]
  | some p =>
      simp [appendPayload, sealedPayload, afterPayload, henc p rfl]

theorem readPayload_run {decrypt : Bytes → EStateM (Fault NoiseError) σ Bytes}
    (hk : s.k.isSome = true)
    (hdec : ∀ p ∈ payload, (decrypt (sealed S p s)).run (put s) = .ok p (put (afterSealed S p s))) :
    (readPayload decrypt (sealedPayload S payload s)).run (put s) =
      .ok payload (put (afterPayload S payload s)) := by
  cases payload with
  | none =>
      simp [readPayload, sealedPayload, afterPayload]
  | some p =>
      have hne : sealed S p s ≠ [] := by
        apply List.ne_nil_of_length_pos
        simp [sealed_length hk]
      simp [readPayload, sealedPayload, afterPayload, hne, hdec p rfl]

end Payload

section PayloadRoles

variable {S : Suite} {payload : Option Bytes} {negLen : ℕ}

theorem NoiseXxInitiator.appendPayload_run (hroom : ∀ p ∈ payload, p.length + 16 ≤ negLen)
    {self : NoiseXxInitiator} (hk : self.sym.k.isSome = true) (msg : Bytes) :
    (appendPayload (encryptPayload S · negLen) payload msg).run self =
      .ok (msg ++ sealedPayload S payload self.sym)
        { self with sym := afterPayload S payload self.sym } :=
  @Noise.appendPayload_run S _ (fun t => { self with sym := t }) self.sym payload _
    (fun p hp => encryptPayload_run hk (hroom p hp)) msg

theorem NoiseXxResponder.appendPayload_run (hroom : ∀ p ∈ payload, p.length + 16 ≤ negLen)
    {self : NoiseXxResponder} (hk : self.sym.k.isSome = true) (msg : Bytes) :
    (appendPayload (encryptPayload S · negLen) payload msg).run self =
      .ok (msg ++ sealedPayload S payload self.sym)
        { self with sym := afterPayload S payload self.sym } :=
  @Noise.appendPayload_run S _ (fun t => { self with sym := t }) self.sym payload _
    (fun p hp => encryptPayload_run hk (hroom p hp)) msg

theorem NoiseXxInitiator.readPayload_run (hS : S.Lawful)
    (hroom : ∀ p ∈ payload, p.length ≤ negLen) {self : NoiseXxInitiator} {s : SymmetricState}
    (hs : self.sym = s) (hk : s.k.isSome = true) :
    (readPayload (decryptPayload S · negLen) (sealedPayload S payload s)).run self =
      .ok payload { self with sym := afterPayload S payload s } := by
  subst hs
  exact @Noise.readPayload_run S _ (fun t => { self with sym := t }) self.sym payload
    (decryptPayload S · negLen) hk
    (fun p hp => decryptPayload_run hS rfl hk (hroom p hp))

theorem NoiseXxResponder.readPayload_run (hS : S.Lawful)
    (hroom : ∀ p ∈ payload, p.length ≤ negLen) {self : NoiseXxResponder} {s : SymmetricState}
    (hs : self.sym = s) (hk : s.k.isSome = true) :
    (readPayload (decryptPayload S · negLen) (sealedPayload S payload s)).run self =
      .ok payload { self with sym := afterPayload S payload s } := by
  subst hs
  exact @Noise.readPayload_run S _ (fun t => { self with sym := t }) self.sym payload
    (decryptPayload S · negLen) hk
    (fun p hp => decryptPayload_run hS rfl hk (hroom p hp))

end PayloadRoles

/-! ### The three exchanges -/

section Exchange

variable {S : Suite} (hS : S.Lawful) (si ei sr er : Keypair S) (epochI epochR : Block 8)

include hS

variable {outLen : ℕ}

theorem ikExchange_agrees (rs : HeldKey sr) (hroom : 106 ≤ outLen) :
    ∃ keys, ikExchange si ei sr er rs epochI epochR outLen = .ok
      { initiatorKeys := keys, responderKeys := keys, initiatorEpoch := epochI,
        responderEpoch := epochR, initiatorStatic := si.pub } := by
  obtain ⟨es, hes, hes'⟩ := rs.ecdh_comm hS ei
  obtain ⟨ss, hss, hss'⟩ := rs.ecdh_comm hS si
  obtain ⟨ee, hee, hee'⟩ := ei.ecdh_comm hS er
  have hei := ecdhPubkey_eq_ok ei.publicKey_secret
  have hsr := ecdhPubkey_eq_ok sr.publicKey_secret
  have hnorm := parityNormalize_eq_of_sameX rs.sameX
  have hroom2 : 57 ≤ outLen := by omega
  simp [ikExchange, EStateM.call, NoiseIkInitiator.new, NoiseIkResponder.new, hei, hsr, hnorm,
    hroom, hroom2, hes, hes', hss, hss', hee, hee', NoiseIkInitiator.writeMessage1_run,
    NoiseIkResponder.readMessage1_run hS, NoiseIkResponder.writeMessage2_run er.publicKey_secret,
    NoiseIkInitiator.readMessage2_run hS, NoiseIkInitiator.finalize, NoiseIkResponder.finalize]

theorem xkExchange_agrees (rs : HeldKey sr) (hroom : 73 ≤ outLen) :
    ∃ keys, xkExchange si ei sr er rs epochI epochR outLen = .ok
      { initiatorKeys := keys, responderKeys := keys, initiatorEpoch := epochI,
        responderEpoch := epochR, initiatorStatic := si.pub } := by
  obtain ⟨es, hes, hes'⟩ := rs.ecdh_comm hS ei
  obtain ⟨ee, hee, hee'⟩ := ei.ecdh_comm hS er
  obtain ⟨se, hse, hse'⟩ := si.ecdh_comm hS er
  have hei := ecdhPubkey_eq_ok ei.publicKey_secret
  have hsr := ecdhPubkey_eq_ok sr.publicKey_secret
  have hnorm := parityNormalize_eq_of_sameX rs.sameX
  have hroom1 : 33 ≤ outLen := by omega
  have hroom2 : 57 ≤ outLen := by omega
  simp [xkExchange, EStateM.call, NoiseXkInitiator.new, NoiseXkResponder.new, hei, hsr, hnorm,
    hroom, hroom1, hroom2, hes, hes', hee, hee', hse, hse', NoiseXkInitiator.writeMessage1_run,
    NoiseXkResponder.writeMessage2_run er.publicKey_secret, NoiseXkInitiator.readMessage2_run hS,
    NoiseXkInitiator.writeMessage3_run, NoiseXkResponder.readMessage3_run hS,
    NoiseXkInitiator.finalize, NoiseXkResponder.finalize]

theorem xxExchange_agrees (neg2 neg3 : Option Bytes) (hneg2 : ∀ p ∈ neg2, p.length ≤ 64)
    (hneg3 : ∀ p ∈ neg3, p.length ≤ 64) {encLen decLen : ℕ} (hroom : 106 ≤ outLen)
    (henc : 80 ≤ encLen) (hdec : 64 ≤ decLen) :
    ∃ keys, xxExchange si ei sr er epochI epochR neg2 neg3 outLen encLen decLen = .ok
      { initiatorKeys := keys, responderKeys := keys, initiatorEpoch := epochI,
        responderEpoch := epochR, initiatorStatic := si.pub, responderStatic := sr.pub,
        payload2 := neg2, payload3 := neg3 } := by
  obtain ⟨es, hes, hes'⟩ := ei.ecdh_comm hS sr
  obtain ⟨ee, hee, hee'⟩ := ei.ecdh_comm hS er
  obtain ⟨se, hse, hse'⟩ := si.ecdh_comm hS er
  have hei := ecdhPubkey_eq_ok ei.publicKey_secret
  have hsr := ecdhPubkey_eq_ok sr.publicKey_secret
  have hroom1 : 33 ≤ outLen := by omega
  have hroom3 : 73 ≤ outLen := by omega
  have henc2 : ∀ p ∈ neg2, p.length + 16 ≤ encLen := fun p hp => by have := hneg2 p hp; omega
  have hdec2 : ∀ p ∈ neg2, p.length ≤ decLen := fun p hp => (hneg2 p hp).trans hdec
  have henc3 : ∀ p ∈ neg3, p.length + 16 ≤ encLen := fun p hp => by have := hneg3 p hp; omega
  have hdec3 : ∀ p ∈ neg3, p.length ≤ decLen := fun p hp => (hneg3 p hp).trans hdec
  simp [xxExchange, EStateM.call, NoiseXxInitiator.new, NoiseXxResponder.new, hei, hsr,
    NoiseXxInitiator.writeMessage1_run, NoiseXxResponder.readMessage1_run,
    NoiseXxResponder.writeMessage2_run, er.publicKey_secret, NoiseXxInitiator.readMessage2_run hS,
    NoiseXxInitiator.writeMessage3_run, NoiseXxResponder.readMessage3_run hS,
    NoiseXxResponder.appendPayload_run henc2, NoiseXxInitiator.readPayload_run hS hdec2,
    NoiseXxInitiator.appendPayload_run henc3, NoiseXxResponder.readPayload_run hS hdec3,
    hroom, hroom1, hroom3, hes, hes', hee, hee', hse, hse',
    xxHandshakeMsg2Size, xxHandshakeMsg3Size, tagSize, staticEpoch_length,
    List.take_left', List.drop_left', - List.append_assoc,
    NoiseXxInitiator.finalize, NoiseXxResponder.finalize]

end Exchange

/-- Whatever the secrets and the epochs, each of the three patterns completes: every read
succeeds, both sides finalize to the same keys, the epochs and the static keys arrive as they
were sent, under either parity of the held key, and with or without negotiation payloads. -/
theorem noise_agreement {S : Suite} (hS : S.Lawful) (si ei sr er : Keypair S) (rs : HeldKey sr)
    (epochI epochR : Block 8) (neg2 neg3 : Option Bytes) (hneg2 : ∀ p ∈ neg2, p.length ≤ 64)
    (hneg3 : ∀ p ∈ neg3, p.length ≤ 64) {outLen encLen decLen : ℕ} (hroom : 106 ≤ outLen)
    (henc : 80 ≤ encLen) (hdec : 64 ≤ decLen) :
    (∃ keys, ikExchange si ei sr er rs epochI epochR outLen = .ok
      { initiatorKeys := keys, responderKeys := keys, initiatorEpoch := epochI,
        responderEpoch := epochR, initiatorStatic := si.pub }) ∧
    (∃ keys, xkExchange si ei sr er rs epochI epochR outLen = .ok
      { initiatorKeys := keys, responderKeys := keys, initiatorEpoch := epochI,
        responderEpoch := epochR, initiatorStatic := si.pub }) ∧
    (∃ keys, xxExchange si ei sr er epochI epochR neg2 neg3 outLen encLen decLen = .ok
      { initiatorKeys := keys, responderKeys := keys, initiatorEpoch := epochI,
        responderEpoch := epochR, initiatorStatic := si.pub, responderStatic := sr.pub,
        payload2 := neg2, payload3 := neg3 }) :=
  ⟨ikExchange_agrees hS si ei sr er epochI epochR rs hroom,
    xkExchange_agrees hS si ei sr er epochI epochR rs (by omega),
    xxExchange_agrees hS si ei sr er epochI epochR neg2 neg3 hneg2 hneg3 hroom henc hdec⟩

theorem noise_agreement_additive :
    (∃ keys, ikExchange (Additive.keypair 1) (Additive.keypair 2) (Additive.keypair 3)
      (Additive.keypair 4) (Additive.oddKey 3) (Block.replicate 8 5) (Block.replicate 8 6) 256 =
      .ok
        { initiatorKeys := keys, responderKeys := keys, initiatorEpoch := Block.replicate 8 5,
          responderEpoch := Block.replicate 8 6, initiatorStatic := (Additive.keypair 1).pub }) ∧
    (∃ keys, xkExchange (Additive.keypair 1) (Additive.keypair 2) (Additive.keypair 3)
      (Additive.keypair 4) (Additive.oddKey 3) (Block.replicate 8 5) (Block.replicate 8 6) 256 =
      .ok
        { initiatorKeys := keys, responderKeys := keys, initiatorEpoch := Block.replicate 8 5,
          responderEpoch := Block.replicate 8 6, initiatorStatic := (Additive.keypair 1).pub }) ∧
    (∃ keys, xxExchange (Additive.keypair 1) (Additive.keypair 2) (Additive.keypair 3)
      (Additive.keypair 4) (Block.replicate 8 5) (Block.replicate 8 6) (some [7, 8]) none 256 80
      64 = .ok
        { initiatorKeys := keys, responderKeys := keys, initiatorEpoch := Block.replicate 8 5,
          responderEpoch := Block.replicate 8 6, initiatorStatic := (Additive.keypair 1).pub,
          responderStatic := (Additive.keypair 3).pub, payload2 := some [7, 8],
          payload3 := none }) :=
  noise_agreement Additive.suite_lawful _ _ _ _ _ _ _ _ _ (by simp) (by simp) (by decide)
    (by decide) (by decide)

end Noise
end Microfips

import Microfips.Noise.IK
import Microfips.Noise.XX

/-!
# The messages of an exchange, one by one

What `Noise.Agreement` says of whole exchanges, in the form in which two parties that take their
steps at different times use it: given what the initiator wrote, the responder answers, and what it
answers completes the exchange on both sides with the same keys.
-/

namespace Microfips
namespace Noise

open SymmetricState

section Steps

variable {S : Suite} (hS : S.Lawful) {si ei sr : Keypair S} {epochI : Block 8}

include hS

variable {outLen : ℕ}

theorem exists_ikMsg1 (rs : HeldKey sr) (ei si : Keypair S) (epochI : Block 8)
    (hroom : 106 ≤ outLen) :
    ∃ i₀ m₁ i₁, NoiseIkInitiator.new S ei.secret si.secret rs.pub = .ok (i₀, ei.pub) ∧
      (NoiseIkInitiator.writeMessage1 S si.pub epochI outLen).run i₀ = .ok m₁ i₁ ∧
      m₁.length = 106 := by
  obtain ⟨es, hes, -⟩ := rs.ecdh_comm hS ei
  obtain ⟨ss, hss, -⟩ := rs.ecdh_comm hS si
  obtain ⟨i₀, hnew, hpriv, hstatic, hheld⟩ : ∃ i₀ : NoiseIkInitiator,
      NoiseIkInitiator.new S ei.secret si.secret rs.pub = .ok (i₀, ei.pub) ∧
        i₀.ePriv = ei.secret ∧ i₀.sPriv = si.secret ∧ i₀.rsPub = rs.pub := by
    rw [NoiseIkInitiator.new, ecdhPubkey_eq_ok ei.publicKey_secret]
    exact ⟨_, rfl, rfl, rfl, rfl⟩
  have hes₀ : xOnlyEcdh S i₀.ePriv i₀.rsPub = .ok es := by rw [hpriv, hheld, hes]
  have hss₀ : xOnlyEcdh S i₀.sPriv i₀.rsPub = .ok ss := by rw [hstatic, hheld, hss]
  have hwrite := NoiseIkInitiator.writeMessage1_run hes₀ hss₀ si.pub epochI hroom
  exact ⟨i₀, _, _, hnew, hwrite, by simp [staticEpoch_length]⟩

theorem exists_ikMsg2 (rs : HeldKey sr) (er : Keypair S) (epochR : Block 8) {outLen' : ℕ}
    (hroom : 106 ≤ outLen) (hroom' : 57 ≤ outLen') {i₀ i₁ : NoiseIkInitiator} {m₁ : Bytes}
    (hnew : NoiseIkInitiator.new S ei.secret si.secret rs.pub = .ok (i₀, ei.pub))
    (hm₁ : (NoiseIkInitiator.writeMessage1 S si.pub epochI outLen).run i₀ = .ok m₁ i₁) :
    ∃ r₀ r₁ m₂ r₂ i₂,
      NoiseIkResponder.new S sr.secret (Block.ofBytes 33 (m₁.take 33)) = .ok r₀ ∧
      (NoiseIkResponder.readMessage1 S (m₁.drop 33)).run r₀ = .ok (si.pub, epochI) r₁ ∧
      (NoiseIkResponder.writeMessage2 S er.secret epochR outLen').run r₁ = .ok m₂ r₂ ∧
      m₂.length = 57 ∧
      (NoiseIkInitiator.readMessage2 S m₂).run i₁ = .ok epochR i₂ ∧
      i₂.finalize S = r₂.finalize S := by
  obtain ⟨es, hes, hes'⟩ := rs.ecdh_comm hS ei
  obtain ⟨ss, hss, hss'⟩ := rs.ecdh_comm hS si
  obtain ⟨ee, hee, hee'⟩ := ei.ecdh_comm hS er
  rw [NoiseIkInitiator.new, ecdhPubkey_eq_ok ei.publicKey_secret] at hnew
  obtain ⟨rfl, -⟩ := Prod.mk.inj (Except.ok.inj hnew)
  obtain ⟨rfl, rfl⟩ := EStateM.Result.ok.inj
    ((NoiseIkInitiator.writeMessage1_run hes hss si.pub epochI hroom).symm.trans hm₁)
  dsimp only
  -- The symmetric state of both sides behind the first key.
  obtain ⟨s, hs⟩ : ∃ s, mixKey S es (mixHash S ei.pub.bytes
      (mixHash S (parityNormalize rs.pub).bytes (init S protocolName))) = s := ⟨_, rfl⟩
  have hk : s.k.isSome = true := by
    rw [← hs]
    simp
  rw [hs, Block.take_bytes_append, Block.drop_bytes_append, Block.ofBytes_bytes]
  obtain ⟨r₀, hr₀, hsym₀, hpriv₀, hei₀⟩ : ∃ r₀, NoiseIkResponder.new S sr.secret ei.pub = .ok r₀ ∧
      r₀.sym = s ∧ r₀.sPriv = sr.secret ∧ r₀.eiPub = ei.pub := by
    rw [NoiseIkResponder.new, ecdhPubkey_eq_ok sr.publicKey_secret, hes']
    refine ⟨_, rfl, ?_, rfl, rfl⟩
    rw [← hs, parityNormalize_eq_of_sameX rs.sameX]
  obtain ⟨r₁, hr₁, hsym₁, hpriv₁, hei₁⟩ : ∃ r₁,
      (NoiseIkResponder.readMessage1 S (staticEpoch S ss si.pub epochI s)).run r₀ =
          .ok (si.pub, epochI) r₁ ∧
        r₁.sym = afterStaticEpoch S ss si.pub epochI s ∧ r₁.sPriv = sr.secret ∧
        r₁.eiPub = ei.pub :=
    ⟨_, NoiseIkResponder.readMessage1_run hS hsym₀ hk (by rw [hpriv₀, hss']) epochI, rfl, hpriv₀,
      hei₀⟩
  obtain ⟨s₂, hs₂⟩ : ∃ s₂, mixKey S es (mixKey S ee (mixHash S er.pub.bytes
      (afterStaticEpoch S ss si.pub epochI s))) = s₂ := ⟨_, rfl⟩
  have hk₂ : s₂.k.isSome = true := by
    rw [← hs₂]
    simp
  obtain ⟨r₂, hr₂, hsym₂⟩ : ∃ r₂,
      (NoiseIkResponder.writeMessage2 S er.secret epochR outLen').run r₁ =
          .ok (er.pub.bytes ++ sealed S epochR.bytes s₂) r₂ ∧
        r₂.sym = afterSealed S epochR.bytes s₂ := by
    rw [NoiseIkResponder.writeMessage2_run er.publicKey_secret (by rw [hei₁, hee'])
      (by rw [hpriv₁, hei₁, hes']) epochR hroom', hsym₁, hs₂]
    exact ⟨_, rfl, rfl⟩
  refine ⟨r₀, r₁, _, r₂, _, hr₀, hr₁, hr₂, ?_,
    NoiseIkInitiator.readMessage2_run hS hee hes hs₂ epochR, ?_⟩
  · simp [sealed_length hk₂]
  · rw [NoiseIkInitiator.finalize, NoiseIkResponder.finalize, hsym₂]

omit hS in
theorem exists_xxMsg1 (ei si : Keypair S) :
    ∃ i₀ i₁, NoiseXxInitiator.new S ei.secret si.secret = .ok (i₀, ei.pub) ∧
      ∀ n, 33 ≤ n → (NoiseXxInitiator.writeMessage1 S n).run i₀ = .ok ei.pub.bytes i₁ := by
  rw [NoiseXxInitiator.new, ecdhPubkey_eq_ok ei.publicKey_secret]
  exact ⟨_, _, rfl, fun _ hroom => NoiseXxInitiator.writeMessage1_run _ hroom⟩

/-- A msg1 of XX is answered, and the answer with its payload is read; then msg3 with its payload is
read, which completes the exchange. -/
theorem exists_xxMsg2 (er sr : Keypair S) (epochI epochR : Block 8) (hroom : 33 ≤ outLen)
    {i₀ i₁ : NoiseXxInitiator} {m₁ : Bytes}
    (hnew : NoiseXxInitiator.new S ei.secret si.secret = .ok (i₀, ei.pub))
    (hm₁ : (NoiseXxInitiator.writeMessage1 S outLen).run i₀ = .ok m₁ i₁)
    {out₂ enc₂ out₃ enc₃ dec : ℕ} (hout₂ : 106 ≤ out₂) (hout₃ : 73 ≤ out₃) {neg₂ neg₃ : Bytes}
    (henc₂ : neg₂.length + 16 ≤ enc₂) (henc₃ : neg₃.length + 16 ≤ enc₃) (hdec₂ : neg₂.length ≤ dec)
    (hdec₃ : neg₃.length ≤ dec) :
    ∃ r₀ r₁ m₂ r₂ c₂ r₃,
      NoiseXxResponder.new S sr.secret = .ok r₀ ∧
      (NoiseXxResponder.readMessage1 S m₁).run r₀ = .ok ⟨⟩ r₁ ∧
      (NoiseXxResponder.writeMessage2 S er.secret epochR out₂).run r₁ = .ok m₂ r₂ ∧
      m₂.length = 106 ∧
      (NoiseXxResponder.encryptPayload S neg₂ enc₂).run r₂ = .ok c₂ r₃ ∧
      c₂.length = neg₂.length + 16 ∧
      ∃ i₂ i₃ m₃ i₄ c₃ i₅,
        (NoiseXxInitiator.readMessage2 S m₂).run i₁ = .ok (sr.pub, epochR) i₂ ∧
        (NoiseXxInitiator.decryptPayload S c₂ dec).run i₂ = .ok neg₂ i₃ ∧
        i₃.sym = r₃.sym ∧
        (NoiseXxInitiator.writeMessage3 S si.pub epochI out₃).run i₃ = .ok m₃ i₄ ∧
        m₃.length = 73 ∧
        (NoiseXxInitiator.encryptPayload S neg₃ enc₃).run i₄ = .ok c₃ i₅ ∧
        c₃.length = neg₃.length + 16 ∧
        ∃ r₄ r₅,
          (NoiseXxResponder.readMessage3 S m₃).run r₃ = .ok (si.pub, epochI) r₄ ∧
          (NoiseXxResponder.decryptPayload S c₃ dec).run r₄ = .ok neg₃ r₅ ∧
          i₅.finalize S = r₅.finalize S := by
  obtain ⟨es, hes, hes'⟩ := ei.ecdh_comm hS sr
  obtain ⟨ee, hee, hee'⟩ := ei.ecdh_comm hS er
  obtain ⟨se, hse, hse'⟩ := si.ecdh_comm hS er
  rw [NoiseXxInitiator.new, ecdhPubkey_eq_ok ei.publicKey_secret] at hnew
  obtain ⟨rfl, -⟩ := Prod.mk.inj (Except.ok.inj hnew)
  obtain ⟨rfl, rfl⟩ := EStateM.Result.ok.inj
    ((NoiseXxInitiator.writeMessage1_run _ hroom).symm.trans hm₁)
  dsimp only
  -- The responder up to its answer.
  obtain ⟨s₁, hs₁⟩ : ∃ s, mixHash S ei.pub.bytes (init S protocolNameXx) = s := ⟨_, rfl⟩
  rw [hs₁]
  obtain ⟨r₀, hr₀, hsym₀, hpriv₀, hpub₀⟩ : ∃ r₀, NoiseXxResponder.new S sr.secret = .ok r₀ ∧
      r₀.sym = init S protocolNameXx ∧ r₀.sPriv = sr.secret ∧ r₀.sPub = sr.pub := by
    rw [NoiseXxResponder.new, ecdhPubkey_eq_ok sr.publicKey_secret]
    exact ⟨_, rfl, rfl, rfl, rfl⟩
  obtain ⟨r₁, hr₁, hsym₁, hpriv₁, hpub₁, hei₁⟩ : ∃ r₁,
      (NoiseXxResponder.readMessage1 S ei.pub.bytes).run r₀ = .ok ⟨⟩ r₁ ∧ r₁.sym = s₁ ∧
        r₁.sPriv = sr.secret ∧ r₁.sPub = sr.pub ∧ r₁.eiPub = some ei.pub :=
    ⟨_, NoiseXxResponder.readMessage1_run r₀ ei.pub, by rw [hsym₀, hs₁], hpriv₀, hpub₀, rfl⟩
  obtain ⟨s₂, hs₂⟩ : ∃ s, mixKey S ee (mixHash S er.pub.bytes s₁) = s := ⟨_, rfl⟩
  have hk₂ : s₂.k.isSome = true := by
    rw [← hs₂]
    simp
  obtain ⟨r₂, hr₂, hsym₂, hpriv₂⟩ : ∃ r₂,
      (NoiseXxResponder.writeMessage2 S er.secret epochR out₂).run r₁ =
          .ok (er.pub.bytes ++ staticEpoch S es sr.pub epochR s₂) r₂ ∧
        r₂.sym = afterStaticEpoch S es sr.pub epochR s₂ ∧ r₂.ePriv = some er.secret := by
    rw [NoiseXxResponder.writeMessage2_run hei₁ er.publicKey_secret hee' (by rw [hpriv₁, hes'])
      epochR hout₂, hsym₁, hs₂, hpub₁]
    exact ⟨_, rfl, rfl, rfl⟩
  have hkr₂ : r₂.sym.k.isSome = true := by
    rw [hsym₂]
    simp
  -- The initiator up to msg3.
  obtain ⟨i₂, hi₂, hisym₂, hipriv₂, hire₂⟩ : ∃ i₂ : NoiseXxInitiator,
      (NoiseXxInitiator.readMessage2 S (er.pub.bytes ++ staticEpoch S es sr.pub epochR s₂)).run
          { sym := s₁, ePriv := ei.secret, ePub := ei.pub, sPriv := si.secret, rePub := none,
            rsPub := none } = .ok (sr.pub, epochR) i₂ ∧
        i₂.sym = r₂.sym ∧ i₂.sPriv = si.secret ∧ i₂.rePub = some er.pub :=
    ⟨_, NoiseXxInitiator.readMessage2_run hS hee hes hs₂ epochR, hsym₂.symm, rfl, rfl⟩
  obtain ⟨s₃, hs₃⟩ : ∃ s, afterSealed S neg₂ r₂.sym = s := ⟨_, rfl⟩
  have hk₃ : s₃.k.isSome = true := by
    rw [← hs₃, afterSealed_isSome_k, hkr₂]
  obtain ⟨r₃, hr₃, hsym₃, hpriv₃⟩ : ∃ r₃,
      (NoiseXxResponder.encryptPayload S neg₂ enc₂).run r₂ = .ok (sealed S neg₂ r₂.sym) r₃ ∧
        r₃.sym = s₃ ∧ r₃.ePriv = some er.secret :=
    ⟨_, NoiseXxResponder.encryptPayload_run hkr₂ henc₂, hs₃, hpriv₂⟩
  obtain ⟨i₃, hi₃, hisym₃, hipriv₃, hire₃⟩ : ∃ i₃,
      (NoiseXxInitiator.decryptPayload S (sealed S neg₂ r₂.sym) dec).run i₂ = .ok neg₂ i₃ ∧
        i₃.sym = s₃ ∧ i₃.sPriv = si.secret ∧ i₃.rePub = some er.pub :=
    ⟨_, NoiseXxInitiator.decryptPayload_run hS hisym₂ hkr₂ hdec₂, hs₃, hipriv₂, hire₂⟩
  obtain ⟨i₄, hi₄, hisym₄⟩ : ∃ i₄,
      (NoiseXxInitiator.writeMessage3 S si.pub epochI out₃).run i₃ =
          .ok (staticEpoch S se si.pub epochI s₃) i₄ ∧
        i₄.sym = afterStaticEpoch S se si.pub epochI s₃ := by
    rw [NoiseXxInitiator.writeMessage3_run (by rw [hisym₃, hk₃]) hire₃ (by rw [hipriv₃, hse]) si.pub
      epochI hout₃, hisym₃]
    exact ⟨_, rfl, rfl⟩
  obtain ⟨s₄, hs₄⟩ : ∃ s, afterStaticEpoch S se si.pub epochI s₃ = s := ⟨_, rfl⟩
  have hk₄ : s₄.k.isSome = true := by
    rw [← hs₄]
    simp
  rw [hs₄] at hisym₄
  -- The responder behind msg3.
  obtain ⟨r₄, hr₄, hsym₄⟩ : ∃ r₄,
      (NoiseXxResponder.readMessage3 S (staticEpoch S se si.pub epochI s₃)).run r₃ =
          .ok (si.pub, epochI) r₄ ∧ r₄.sym = s₄ :=
    ⟨_, NoiseXxResponder.readMessage3_run hS hsym₃ hk₃ hpriv₃ hse' epochI, hs₄⟩
  refine ⟨r₀, r₁, _, r₂, _, r₃, hr₀, hr₁, hr₂, ?_, hr₃, sealed_length hkr₂ neg₂, i₂, i₃, _, i₄, _,
    _, hi₂,
    hi₃, hisym₃.trans hsym₃.symm, hi₄, ?_,
    NoiseXxInitiator.encryptPayload_run (by rw [hisym₄, hk₄]) henc₃, ?_, r₄, _, hr₄,
    NoiseXxResponder.decryptPayload_run hS (by rw [hsym₄, hisym₄]) (by rw [hisym₄, hk₄]) hdec₃, ?_⟩
  · simp [staticEpoch_length, hk₂]
  · simp [staticEpoch_length, hk₃]
  · rw [hisym₄]
    exact sealed_length hk₄ neg₃
  · rw [NoiseXxInitiator.finalize, NoiseXxResponder.finalize]

end Steps

end Noise
end Microfips

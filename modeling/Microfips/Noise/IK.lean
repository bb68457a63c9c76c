import Microfips.Noise.Symmetric

/-!
# The IK handshake

`NoiseIkInitiator` and `NoiseIkResponder` of `fips-noise`, the handshake of the link layer:

```text
  <- s
  -> e, es, s, ss, epoch
  <- e, ee, se, epoch
```

The `se` token takes the inputs of `es` on both sides.
-/

namespace Microfips
namespace Noise

open SymmetricState

def protocolName : Bytes :=
  "Noise_IK_secp256k1_ChaChaPoly_SHA256".toUTF8.toList

structure NoiseIkInitiator where
  sym : SymmetricState
  ePriv : Block 32
  ePub : Block 33
  sPriv : Block 32
  rsPub : Block 33
  deriving DecidableEq

namespace NoiseIkInitiator

def new (S : Suite) (myEphemeralSecret myStaticSecret : Block 32)
    (responderStaticPub : Block 33) : Except NoiseError (NoiseIkInitiator × Block 33) := do
  let ePub ← ecdhPubkey S myEphemeralSecret
  return ({
    sym := mixHash S (parityNormalize responderStaticPub).bytes (init S protocolName)
    ePriv := myEphemeralSecret
    ePub := ePub
    sPriv := myStaticSecret
    rsPub := responderStaticPub }, ePub)

def onSym {α : Type} (m : EStateM (Fault NoiseError) SymmetricState α) :
    EStateM (Fault NoiseError) NoiseIkInitiator α :=
  EStateM.zoom sym (fun t self => { self with sym := t }) m

def writeMessage1 (S : Suite) (myStaticPub : Block 33) (epoch : Block 8) (outLen : ℕ) :
    EStateM (Fault NoiseError) NoiseIkInitiator Bytes := do
  if outLen < 33 + (33 + tagSize) + (8 + tagSize) then
    throw (.err .bufferTooSmall)
  else
    let self ← get
    onSym (modify (mixHash S self.ePub.bytes))
    let dh ← EStateM.ofExcept (xOnlyEcdh S self.ePriv self.rsPub)
    onSym (modify (mixKey S dh))
    let encStatic ← onSym (encryptAndHash S myStaticPub.bytes (outLen - 33))
    let ssDh ← EStateM.ofExcept (xOnlyEcdh S self.sPriv self.rsPub)
    onSym (modify (mixKey S ssDh))
    let encEpoch ← onSym (encryptAndHash S epoch.bytes (outLen - 33 - encStatic.length))
    return self.ePub.bytes ++ (encStatic ++ encEpoch)

def readMessage2 (S : Suite) (payload : Bytes) :
    EStateM (Fault NoiseError) NoiseIkInitiator (Block 8) := do
  if payload.length ≠ 33 + 8 + tagSize then
    throw (.err .invalidMessage)
  else
    let self ← get
    let rePub := Block.ofBytes 33 (payload.take 33)
    onSym (modify (mixHash S rePub.bytes))
    let dh ← EStateM.ofExcept (xOnlyEcdh S self.ePriv rePub)
    onSym (modify (mixKey S dh))
    let seDh ← EStateM.ofExcept (xOnlyEcdh S self.ePriv self.rsPub)
    onSym (modify (mixKey S seDh))
    onSym (decryptBlock S (payload.drop 33) 8)

def finalize (S : Suite) (self : NoiseIkInitiator) : Block 32 × Block 32 :=
  self.sym.finalize S

theorem writeMessage1_run {S : Suite} {self : NoiseIkInitiator} {es ss : Block 32}
    (hes : xOnlyEcdh S self.ePriv self.rsPub = .ok es)
    (hss : xOnlyEcdh S self.sPriv self.rsPub = .ok ss) (static : Block 33) (epoch : Block 8)
    {outLen : ℕ} (hroom : 106 ≤ outLen) :
    let s := mixKey S es (mixHash S self.ePub.bytes self.sym)
    (writeMessage1 S static epoch outLen).run self =
      .ok (self.ePub.bytes ++ staticEpoch S ss static epoch s)
        { self with sym := afterStaticEpoch S ss static epoch s } := by
  have hroom0 : ¬ outLen < 106 := by omega
  have hroom1 : 49 ≤ outLen - 33 := by omega
  have hroom2 : 24 ≤ outLen - 33 - 49 := by omega
  simp [writeMessage1, tagSize, onSym, hes, hss, hroom0, hroom1, hroom2, encryptAndHash_run,
    sealed_length, staticEpoch, afterStaticEpoch]

theorem readMessage2_run {S : Suite} (hS : S.Lawful) {self : NoiseIkInitiator}
    {ee se : Block 32} {rePub : Block 33} (hee : xOnlyEcdh S self.ePriv rePub = .ok ee)
    (hse : xOnlyEcdh S self.ePriv self.rsPub = .ok se) {s : SymmetricState}
    (hs : mixKey S se (mixKey S ee (mixHash S rePub.bytes self.sym)) = s) (epoch : Block 8) :
    (readMessage2 S (rePub.bytes ++ sealed S epoch.bytes s)).run self =
      .ok epoch { self with sym := afterSealed S epoch.bytes s } := by
  subst hs
  simp [readMessage2, tagSize, onSym, hee, hse, sealed_length, decryptBlock_run hS]

end NoiseIkInitiator

structure NoiseIkResponder where
  sym : SymmetricState
  sPriv : Block 32
  eiPub : Block 33
  rsPub : Option (Block 33)
  deriving DecidableEq

namespace NoiseIkResponder

def new (S : Suite) (responderStaticSecret : Block 32) (initiatorEphemeralPub : Block 33) :
    Except NoiseError NoiseIkResponder := do
  let sPub ← (ecdhPubkey S responderStaticSecret).mapError fun _ => .invalidPublicKey
  let dh ← (xOnlyEcdh S responderStaticSecret initiatorEphemeralPub).mapError
    fun _ => .decryptionFailed
  return {
    sym := mixKey S dh (mixHash S initiatorEphemeralPub.bytes
      (mixHash S (parityNormalize sPub).bytes (init S protocolName)))
    sPriv := responderStaticSecret
    eiPub := initiatorEphemeralPub
    rsPub := none }

def onSym {α : Type} (m : EStateM (Fault NoiseError) SymmetricState α) :
    EStateM (Fault NoiseError) NoiseIkResponder α :=
  EStateM.zoom sym (fun t self => { self with sym := t }) m

def readMessage1 (S : Suite) (payload : Bytes) :
    EStateM (Fault NoiseError) NoiseIkResponder (Block 33 × Block 8) := do
  if payload.length < 33 + tagSize + 8 + tagSize then
    throw (.err (.messageTooShort (33 + tagSize + 8 + tagSize) payload.length))
  else
    let self ← get
    let staticBuf ← EStateM.mapErr (fun _ => .decryptionFailed)
      (onSym (decryptBlock S (payload.take 49) 33))
    let ssDh ← EStateM.mapErr (fun _ => .decryptionFailed)
      (EStateM.ofExcept (xOnlyEcdh S self.sPriv staticBuf))
    onSym (modify (mixKey S ssDh))
    modify fun self => { self with rsPub := some staticBuf }
    let epochBuf ← EStateM.mapErr (fun _ => .decryptionFailed)
      (onSym (decryptBlock S (payload.drop 49) 8))
    return (staticBuf, epochBuf)

def writeMessage2 (S : Suite) (responderEphemeralSecret : Block 32) (epoch : Block 8)
    (outLen : ℕ) : EStateM (Fault NoiseError) NoiseIkResponder Bytes := do
  if outLen < 33 + 8 + tagSize then
    throw (.err (.messageTooLarge outLen (33 + 8 + tagSize)))
  else
    let self ← get
    let ePub ← EStateM.mapErr (fun _ => .invalidPublicKey)
      (EStateM.ofExcept (ecdhPubkey S responderEphemeralSecret))
    onSym (modify (mixHash S ePub.bytes))
    let eeDh ← EStateM.mapErr (fun _ => .decryptionFailed)
      (EStateM.ofExcept (xOnlyEcdh S responderEphemeralSecret self.eiPub))
    onSym (modify (mixKey S eeDh))
    let seDh ← EStateM.mapErr (fun _ => .decryptionFailed)
      (EStateM.ofExcept (xOnlyEcdh S self.sPriv self.eiPub))
    onSym (modify (mixKey S seDh))
    let encEpoch ← EStateM.mapErr (fun _ => .encryptionFailed)
      (onSym (encryptAndHash S epoch.bytes (outLen - 33)))
    return ePub.bytes ++ encEpoch

def finalize (S : Suite) (self : NoiseIkResponder) : Block 32 × Block 32 :=
  self.sym.finalize S

theorem readMessage1_run {S : Suite} (hS : S.Lawful) {self : NoiseIkResponder}
    {ss : Block 32} {static : Block 33} {s : SymmetricState} (hs : self.sym = s)
    (hk : s.k.isSome = true) (hss : xOnlyEcdh S self.sPriv static = .ok ss) (epoch : Block 8) :
    (readMessage1 S (staticEpoch S ss static epoch s)).run self =
      .ok (static, epoch)
        { self with sym := afterStaticEpoch S ss static epoch s, rsPub := some static } := by
  subst hs
  simp [readMessage1, tagSize, onSym, hk, hss, staticEpoch_length, staticEpoch_take,
    staticEpoch_drop, decryptBlock_run hS, afterStaticEpoch]

theorem writeMessage2_run {S : Suite} {self : NoiseIkResponder} {ee se e : Block 32}
    {ePub : Block 33} (he : S.publicKey e = some ePub)
    (hee : xOnlyEcdh S e self.eiPub = .ok ee)
    (hse : xOnlyEcdh S self.sPriv self.eiPub = .ok se) (epoch : Block 8) {outLen : ℕ}
    (hroom : 57 ≤ outLen) :
    let s := mixKey S se (mixKey S ee (mixHash S ePub.bytes self.sym))
    (writeMessage2 S e epoch outLen).run self =
      .ok (ePub.bytes ++ sealed S epoch.bytes s)
        { self with sym := afterSealed S epoch.bytes s } := by
  have hroom0 : ¬ outLen < 57 := by omega
  have hroom1 : 24 ≤ outLen - 33 := by omega
  simp [writeMessage2, tagSize, onSym, hee, hse, hroom0, hroom1, ecdhPubkey_eq_ok he,
    encryptAndHash_run]

end NoiseIkResponder
end Noise
end Microfips

import Microfips.Noise.Symmetric

/-!
# The XK handshake

`NoiseXkInitiator` and `NoiseXkResponder` of `fips-noise`, the handshake of the session layer:

```text
  <- s
  -> e, es
  <- e, ee, epoch
  -> s, se, epoch
```
-/

namespace Microfips
namespace Noise

open SymmetricState

def protocolNameXk : Bytes :=
  "Noise_XK_secp256k1_ChaChaPoly_SHA256".toUTF8.toList

structure NoiseXkInitiator where
  sym : SymmetricState
  ePriv : Block 32
  ePub : Block 33
  sPriv : Block 32
  rsPub : Block 33
  rePub : Option (Block 33)
  deriving DecidableEq

namespace NoiseXkInitiator

def new (S : Suite) (myEphemeralSecret myStaticSecret : Block 32)
    (responderStaticPub : Block 33) : Except NoiseError (NoiseXkInitiator × Block 33) := do
  let ePub ← ecdhPubkey S myEphemeralSecret
  return ({
    sym := mixHash S (parityNormalize responderStaticPub).bytes (init S protocolNameXk)
    ePriv := myEphemeralSecret
    ePub := ePub
    sPriv := myStaticSecret
    rsPub := responderStaticPub
    rePub := none }, ePub)

def onSym {α : Type} (m : EStateM (Fault NoiseError) SymmetricState α) :
    EStateM (Fault NoiseError) NoiseXkInitiator α :=
  EStateM.zoom sym (fun t self => { self with sym := t }) m

def writeMessage1 (S : Suite) (outLen : ℕ) :
    EStateM (Fault NoiseError) NoiseXkInitiator Bytes := do
  if outLen < 33 then
    throw (.err .bufferTooSmall)
  else
    let self ← get
    onSym (modify (mixHash S self.ePub.bytes))
    let dh ← EStateM.ofExcept (xOnlyEcdh S self.ePriv self.rsPub)
    onSym (modify (mixKey S dh))
    return self.ePub.bytes

def readMessage2 (S : Suite) (payload : Bytes) :
    EStateM (Fault NoiseError) NoiseXkInitiator (Block 8) := do
  if payload.length ≠ 33 + 8 + tagSize then
    throw (.err .invalidMessage)
  else
    let self ← get
    let rePub := Block.ofBytes 33 (payload.take 33)
    modify fun self => { self with rePub := some rePub }
    onSym (modify (mixHash S (payload.take 33)))
    let ee ← EStateM.ofExcept (xOnlyEcdh S self.ePriv rePub)
    onSym (modify (mixKey S ee))
    onSym (decryptBlock S (payload.drop 33) 8)

def writeMessage3 (S : Suite) (myStaticPub : Block 33) (epoch : Block 8) (outLen : ℕ) :
    EStateM (Fault NoiseError) NoiseXkInitiator Bytes := do
  if outLen < (33 + tagSize) + (8 + tagSize) then
    throw (.err .bufferTooSmall)
  else
    let encStatic ← onSym (encryptAndHash S myStaticPub.bytes outLen)
    let self ← get
    let rePub ← EStateM.unwrap self.rePub
    let se ← EStateM.ofExcept (xOnlyEcdh S self.sPriv rePub)
    onSym (modify (mixKey S se))
    let encEpoch ← onSym (encryptAndHash S epoch.bytes (outLen - encStatic.length))
    return encStatic ++ encEpoch

def finalize (S : Suite) (self : NoiseXkInitiator) : Block 32 × Block 32 :=
  self.sym.finalize S

variable {S : Suite} {self : NoiseXkInitiator}

theorem writeMessage1_run {es : Block 32} (hes : xOnlyEcdh S self.ePriv self.rsPub = .ok es)
    {outLen : ℕ} (hroom : 33 ≤ outLen) :
    (writeMessage1 S outLen).run self =
      .ok self.ePub.bytes
        { self with sym := mixKey S es (mixHash S self.ePub.bytes self.sym) } := by
  have hroom0 : ¬ outLen < 33 := by omega
  simp [writeMessage1, onSym, hes, hroom0]

theorem readMessage2_run (hS : S.Lawful) {ee : Block 32} {rePub : Block 33}
    (hee : xOnlyEcdh S self.ePriv rePub = .ok ee) {s : SymmetricState}
    (hs : mixKey S ee (mixHash S rePub.bytes self.sym) = s) (epoch : Block 8) :
    (readMessage2 S (rePub.bytes ++ sealed S epoch.bytes s)).run self =
      .ok epoch { self with sym := afterSealed S epoch.bytes s, rePub := some rePub } := by
  subst hs
  simp [readMessage2, tagSize, onSym, hee, sealed_length, decryptBlock_run hS]

theorem writeMessage3_run {se : Block 32} {rePub : Block 33} (hk : self.sym.k.isSome = true)
    (hre : self.rePub = some rePub) (hse : xOnlyEcdh S self.sPriv rePub = .ok se)
    (static : Block 33) (epoch : Block 8) {outLen : ℕ} (hroom : 73 ≤ outLen) :
    (writeMessage3 S static epoch outLen).run self =
      .ok (staticEpoch S se static epoch self.sym)
        { self with sym := afterStaticEpoch S se static epoch self.sym } := by
  have hroom0 : ¬ outLen < 73 := by omega
  have hroom1 : 49 ≤ outLen := by omega
  have hroom2 : 24 ≤ outLen - 49 := by omega
  simp [writeMessage3, tagSize, onSym, hk, hre, hse, hroom0, hroom1, hroom2, encryptAndHash_run,
    sealed_length, staticEpoch, afterStaticEpoch]

end NoiseXkInitiator

structure NoiseXkResponder where
  sym : SymmetricState
  eiPub : Block 33
  ePriv : Option (Block 32)
  deriving DecidableEq

namespace NoiseXkResponder

def new (S : Suite) (responderStaticSecret : Block 32) (initiatorEphemeralPub : Block 33) :
    Except NoiseError NoiseXkResponder := do
  let sPub ← ecdhPubkey S responderStaticSecret
  let es ← xOnlyEcdh S responderStaticSecret initiatorEphemeralPub
  return {
    sym := mixKey S es (mixHash S initiatorEphemeralPub.bytes
      (mixHash S (parityNormalize sPub).bytes (init S protocolNameXk)))
    eiPub := initiatorEphemeralPub
    ePriv := none }

def onSym {α : Type} (m : EStateM (Fault NoiseError) SymmetricState α) :
    EStateM (Fault NoiseError) NoiseXkResponder α :=
  EStateM.zoom sym (fun t self => { self with sym := t }) m

def writeMessage2 (S : Suite) (responderEphemeralSecret : Block 32) (epoch : Block 8)
    (outLen : ℕ) : EStateM (Fault NoiseError) NoiseXkResponder Bytes := do
  if outLen < 33 + 8 + tagSize then
    throw (.err .bufferTooSmall)
  else
    modify fun self => { self with ePriv := some responderEphemeralSecret }
    let ePub ← EStateM.ofExcept (ecdhPubkey S responderEphemeralSecret)
    onSym (modify (mixHash S ePub.bytes))
    let self ← get
    let ee ← EStateM.ofExcept (xOnlyEcdh S responderEphemeralSecret self.eiPub)
    onSym (modify (mixKey S ee))
    let encEpoch ← onSym (encryptAndHash S epoch.bytes (outLen - 33))
    return ePub.bytes ++ encEpoch

def readMessage3 (S : Suite) (payload : Bytes) :
    EStateM (Fault NoiseError) NoiseXkResponder (Block 33 × Block 8) := do
  if payload.length ≠ (33 + tagSize) + (8 + tagSize) then
    throw (.err .invalidMessage)
  else
    let staticBuf ← onSym (decryptBlock S (payload.take (33 + tagSize)) 33)
    let self ← get
    let ePriv ← EStateM.ofExcept (self.ePriv.elim (.error .invalidState) .ok)
    let se ← EStateM.ofExcept (xOnlyEcdh S ePriv staticBuf)
    onSym (modify (mixKey S se))
    let epochBuf ← onSym (decryptBlock S (payload.drop (33 + tagSize)) 8)
    return (staticBuf, epochBuf)

def finalize (S : Suite) (self : NoiseXkResponder) : Block 32 × Block 32 :=
  self.sym.finalize S

theorem writeMessage2_run {S : Suite} {self : NoiseXkResponder} {ee e : Block 32}
    {ePub : Block 33} (he : S.publicKey e = some ePub)
    (hee : xOnlyEcdh S e self.eiPub = .ok ee) (epoch : Block 8) {outLen : ℕ}
    (hroom : 57 ≤ outLen) :
    let s := mixKey S ee (mixHash S ePub.bytes self.sym)
    (writeMessage2 S e epoch outLen).run self =
      .ok (ePub.bytes ++ sealed S epoch.bytes s)
        { self with sym := afterSealed S epoch.bytes s, ePriv := some e } := by
  have hroom0 : ¬ outLen < 57 := by omega
  have hroom1 : 24 ≤ outLen - 33 := by omega
  simp [writeMessage2, tagSize, onSym, hee, hroom0, hroom1, ecdhPubkey_eq_ok he,
    encryptAndHash_run]

theorem readMessage3_run {S : Suite} (hS : S.Lawful) {self : NoiseXkResponder}
    {se e : Block 32} {static : Block 33} {s : SymmetricState} (hs : self.sym = s)
    (hk : s.k.isSome = true) (he : self.ePriv = some e)
    (hse : xOnlyEcdh S e static = .ok se) (epoch : Block 8) :
    (readMessage3 S (staticEpoch S se static epoch s)).run self =
      .ok (static, epoch) { self with sym := afterStaticEpoch S se static epoch s } := by
  subst hs
  simp [readMessage3, tagSize, onSym, hk, he, hse, staticEpoch_length, staticEpoch_take,
    staticEpoch_drop, decryptBlock_run hS, afterStaticEpoch]

end NoiseXkResponder
end Noise
end Microfips

import Microfips.Noise.Symmetric

/-!
# The XX handshake

`NoiseXxInitiator` and `NoiseXxResponder` of `fips-noise`, which the `noise-xx` build uses on
both layers.  Either side may append a sealed negotiation payload to its last message.

```text
  -> e
  <- e, ee, s, es, epoch
  -> s, se, epoch
```
-/

namespace Microfips
namespace Noise

open SymmetricState

def protocolNameXx : Bytes :=
  "Noise_XX_secp256k1_ChaChaPoly_SHA256".toUTF8.toList

def xxHandshakeMsg1Size : ℕ := 33

def xxHandshakeMsg2Size : ℕ := 33 + (33 + tagSize) + (8 + tagSize)

def xxHandshakeMsg3Size : ℕ := (33 + tagSize) + (8 + tagSize)

structure NoiseXxInitiator where
  sym : SymmetricState
  ePriv : Block 32
  ePub : Block 33
  sPriv : Block 32
  rePub : Option (Block 33)
  rsPub : Option (Block 33)
  deriving DecidableEq

namespace NoiseXxInitiator

def new (S : Suite) (myEphemeralSecret myStaticSecret : Block 32) :
    Except NoiseError (NoiseXxInitiator × Block 33) := do
  let ePub ← ecdhPubkey S myEphemeralSecret
  return ({
    sym := init S protocolNameXx
    ePriv := myEphemeralSecret
    ePub := ePub
    sPriv := myStaticSecret
    rePub := none
    rsPub := none }, ePub)

def onSym {α : Type} (m : EStateM (Fault NoiseError) SymmetricState α) :
    EStateM (Fault NoiseError) NoiseXxInitiator α :=
  EStateM.zoom sym (fun t self => { self with sym := t }) m

def writeMessage1 (S : Suite) (outLen : ℕ) :
    EStateM (Fault NoiseError) NoiseXxInitiator Bytes := do
  if outLen < xxHandshakeMsg1Size then
    throw (.err .bufferTooSmall)
  else
    let self ← get
    onSym (modify (mixHash S self.ePub.bytes))
    return self.ePub.bytes

def readMessage2 (S : Suite) (payload : Bytes) :
    EStateM (Fault NoiseError) NoiseXxInitiator (Block 33 × Block 8) := do
  if payload.length ≠ xxHandshakeMsg2Size then
    throw (.err .invalidMessage)
  else
    let self ← get
    let rePub := Block.ofBytes 33 (payload.take 33)
    modify fun self => { self with rePub := some rePub }
    onSym (modify (mixHash S rePub.bytes))
    let ee ← EStateM.ofExcept (xOnlyEcdh S self.ePriv rePub)
    onSym (modify (mixKey S ee))
    let rsPub ← onSym (decryptBlock S ((payload.drop 33).take (33 + tagSize)) 33)
    modify fun self => { self with rsPub := some rsPub }
    let es ← EStateM.ofExcept (xOnlyEcdh S self.ePriv rsPub)
    onSym (modify (mixKey S es))
    let epochBuf ← onSym (decryptBlock S ((payload.drop 33).drop (33 + tagSize)) 8)
    return (rsPub, epochBuf)

def writeMessage3 (S : Suite) (myStaticPub : Block 33) (epoch : Block 8) (outLen : ℕ) :
    EStateM (Fault NoiseError) NoiseXxInitiator Bytes := do
  if outLen < xxHandshakeMsg3Size then
    throw (.err .bufferTooSmall)
  else
    let self ← get
    let rePub ← EStateM.ofExcept (self.rePub.elim (.error .invalidState) .ok)
    let encStatic ← onSym (encryptAndHash S myStaticPub.bytes outLen)
    let se ← EStateM.ofExcept (xOnlyEcdh S self.sPriv rePub)
    onSym (modify (mixKey S se))
    let encEpoch ← onSym (encryptAndHash S epoch.bytes (outLen - encStatic.length))
    return encStatic ++ encEpoch

def encryptPayload (S : Suite) (plaintext : Bytes) (outLen : ℕ) :
    EStateM (Fault NoiseError) NoiseXxInitiator Bytes :=
  onSym (encryptAndHash S plaintext outLen)

def decryptPayload (S : Suite) (ciphertext : Bytes) (outLen : ℕ) :
    EStateM (Fault NoiseError) NoiseXxInitiator Bytes :=
  onSym (decryptAndHash S ciphertext outLen)

def finalize (S : Suite) (self : NoiseXxInitiator) : Block 32 × Block 32 :=
  self.sym.finalize S

variable {S : Suite} {outLen : ℕ} {self : NoiseXxInitiator}

theorem writeMessage1_run (self : NoiseXxInitiator) (hroom : 33 ≤ outLen) :
    (writeMessage1 S outLen).run self =
      .ok self.ePub.bytes { self with sym := mixHash S self.ePub.bytes self.sym } := by
  have hroom0 : ¬ outLen < 33 := by omega
  simp [writeMessage1, xxHandshakeMsg1Size, onSym, hroom0]

theorem readMessage2_run (hS : S.Lawful) {ee es : Block 32} {rePub static : Block 33}
    (hee : xOnlyEcdh S self.ePriv rePub = .ok ee) (hes : xOnlyEcdh S self.ePriv static = .ok es)
    {s : SymmetricState} (hs : mixKey S ee (mixHash S rePub.bytes self.sym) = s) (epoch : Block 8) :
    (readMessage2 S (rePub.bytes ++ staticEpoch S es static epoch s)).run self =
      .ok (static, epoch)
        { self with
          sym := afterStaticEpoch S es static epoch s
          rePub := some rePub
          rsPub := some static } := by
  subst hs
  simp [readMessage2, xxHandshakeMsg2Size, tagSize, onSym, hee, hes, staticEpoch_length,
    staticEpoch_take, staticEpoch_drop, decryptBlock_run hS, afterStaticEpoch,
    - List.drop_drop]

theorem writeMessage3_run {se : Block 32} {rePub : Block 33} (hk : self.sym.k.isSome = true)
    (hre : self.rePub = some rePub) (hse : xOnlyEcdh S self.sPriv rePub = .ok se)
    (static : Block 33) (epoch : Block 8) (hroom : 73 ≤ outLen) :
    (writeMessage3 S static epoch outLen).run self =
      .ok (staticEpoch S se static epoch self.sym)
        { self with sym := afterStaticEpoch S se static epoch self.sym } := by
  have hroom0 : ¬ outLen < 73 := by omega
  have hroom1 : 49 ≤ outLen := by omega
  have hroom2 : 24 ≤ outLen - 49 := by omega
  simp [writeMessage3, xxHandshakeMsg3Size, tagSize, onSym, hk, hre, hse, hroom0, hroom1, hroom2,
    encryptAndHash_run, sealed_length, staticEpoch, afterStaticEpoch]

theorem encryptPayload_run (hk : self.sym.k.isSome = true) {plaintext : Bytes}
    (hroom : plaintext.length + 16 ≤ outLen) :
    (encryptPayload S plaintext outLen).run self =
      .ok (sealed S plaintext self.sym)
        { self with sym := afterSealed S plaintext self.sym } := by
  simp [encryptPayload, onSym, encryptAndHash_run hk hroom]

theorem decryptPayload_run (hS : S.Lawful) {s : SymmetricState} (hs : self.sym = s)
    (hk : s.k.isSome = true) {plaintext : Bytes} (hroom : plaintext.length ≤ outLen) :
    (decryptPayload S (sealed S plaintext s) outLen).run self =
      .ok plaintext { self with sym := afterSealed S plaintext s } := by
  subst hs
  simp [decryptPayload, onSym, decryptAndHash_run hS hk hroom]

end NoiseXxInitiator

structure NoiseXxResponder where
  sym : SymmetricState
  sPriv : Block 32
  sPub : Block 33
  ePriv : Option (Block 32)
  ePub : Option (Block 33)
  eiPub : Option (Block 33)
  rsPub : Option (Block 33)
  deriving DecidableEq

namespace NoiseXxResponder

def new (S : Suite) (myStaticSecret : Block 32) : Except NoiseError NoiseXxResponder := do
  let sPub ← ecdhPubkey S myStaticSecret
  return {
    sym := init S protocolNameXx
    sPriv := myStaticSecret
    sPub := sPub
    ePriv := none
    ePub := none
    eiPub := none
    rsPub := none }

def onSym {α : Type} (m : EStateM (Fault NoiseError) SymmetricState α) :
    EStateM (Fault NoiseError) NoiseXxResponder α :=
  EStateM.zoom sym (fun t self => { self with sym := t }) m

def readMessage1 (S : Suite) (payload : Bytes) :
    EStateM (Fault NoiseError) NoiseXxResponder PUnit := do
  if payload.length ≠ xxHandshakeMsg1Size then
    throw (.err .invalidMessage)
  else
    let eiPub := Block.ofBytes 33 (payload.take 33)
    modify fun self => { self with eiPub := some eiPub }
    onSym (modify (mixHash S eiPub.bytes))

def writeMessage2 (S : Suite) (myEphemeralSecret : Block 32) (epoch : Block 8)
    (outLen : ℕ) : EStateM (Fault NoiseError) NoiseXxResponder Bytes := do
  if outLen < xxHandshakeMsg2Size then
    throw (.err .bufferTooSmall)
  else
    let self ← get
    let eiPub ← EStateM.ofExcept (self.eiPub.elim (.error .invalidState) .ok)
    modify fun self => { self with ePriv := some myEphemeralSecret }
    let ePub ← EStateM.ofExcept (ecdhPubkey S myEphemeralSecret)
    modify fun self => { self with ePub := some ePub }
    onSym (modify (mixHash S ePub.bytes))
    let ee ← EStateM.ofExcept (xOnlyEcdh S myEphemeralSecret eiPub)
    onSym (modify (mixKey S ee))
    let encStatic ← onSym (encryptAndHash S self.sPub.bytes (outLen - 33))
    let es ← EStateM.ofExcept (xOnlyEcdh S self.sPriv eiPub)
    onSym (modify (mixKey S es))
    let encEpoch ← onSym (encryptAndHash S epoch.bytes (outLen - 33 - encStatic.length))
    return ePub.bytes ++ (encStatic ++ encEpoch)

def readMessage3 (S : Suite) (payload : Bytes) :
    EStateM (Fault NoiseError) NoiseXxResponder (Block 33 × Block 8) := do
  if payload.length ≠ xxHandshakeMsg3Size then
    throw (.err .invalidMessage)
  else
    let rsPub ← onSym (decryptBlock S (payload.take (33 + tagSize)) 33)
    modify fun self => { self with rsPub := some rsPub }
    let self ← get
    let ePriv ← EStateM.unwrap self.ePriv
    let se ← EStateM.ofExcept (xOnlyEcdh S ePriv rsPub)
    onSym (modify (mixKey S se))
    let epochBuf ← onSym (decryptBlock S (payload.drop (33 + tagSize)) 8)
    return (rsPub, epochBuf)

def encryptPayload (S : Suite) (plaintext : Bytes) (outLen : ℕ) :
    EStateM (Fault NoiseError) NoiseXxResponder Bytes :=
  onSym (encryptAndHash S plaintext outLen)

def decryptPayload (S : Suite) (ciphertext : Bytes) (outLen : ℕ) :
    EStateM (Fault NoiseError) NoiseXxResponder Bytes :=
  onSym (decryptAndHash S ciphertext outLen)

def finalize (S : Suite) (self : NoiseXxResponder) : Block 32 × Block 32 :=
  self.sym.finalize S

variable {S : Suite} {self : NoiseXxResponder} {outLen : ℕ}

theorem readMessage1_run (self : NoiseXxResponder) (eiPub : Block 33) :
    (readMessage1 S eiPub.bytes).run self =
      .ok ⟨⟩ { self with sym := mixHash S eiPub.bytes self.sym, eiPub := some eiPub } := by
  simp [readMessage1, xxHandshakeMsg1Size, onSym]

theorem writeMessage2_run {ee es e : Block 32} {ePub eiPub : Block 33}
    (hei : self.eiPub = some eiPub) (he : S.publicKey e = some ePub)
    (hee : xOnlyEcdh S e eiPub = .ok ee) (hes : xOnlyEcdh S self.sPriv eiPub = .ok es)
    (epoch : Block 8) (hroom : 106 ≤ outLen) :
    let s := mixKey S ee (mixHash S ePub.bytes self.sym)
    (writeMessage2 S e epoch outLen).run self =
      .ok (ePub.bytes ++ staticEpoch S es self.sPub epoch s)
        { self with
          sym := afterStaticEpoch S es self.sPub epoch s
          ePriv := some e
          ePub := some ePub } := by
  have hroom0 : ¬ outLen < 106 := by omega
  have hroom1 : 49 ≤ outLen - 33 := by omega
  have hroom2 : 24 ≤ outLen - 33 - 49 := by omega
  simp [writeMessage2, xxHandshakeMsg2Size, tagSize, onSym, hei, hee, hes, ecdhPubkey_eq_ok he,
    hroom0, hroom1, hroom2, encryptAndHash_run, sealed_length, staticEpoch, afterStaticEpoch]

theorem readMessage3_run (hS : S.Lawful) {se e : Block 32} {static : Block 33} {s : SymmetricState}
    (hs : self.sym = s) (hk : s.k.isSome = true) (he : self.ePriv = some e)
    (hse : xOnlyEcdh S e static = .ok se) (epoch : Block 8) :
    (readMessage3 S (staticEpoch S se static epoch s)).run self =
      .ok (static, epoch)
        { self with sym := afterStaticEpoch S se static epoch s, rsPub := some static } := by
  subst hs
  simp [readMessage3, xxHandshakeMsg3Size, tagSize, onSym, hk, he, hse, staticEpoch_length,
    staticEpoch_take, staticEpoch_drop, decryptBlock_run hS, afterStaticEpoch]

theorem encryptPayload_run (hk : self.sym.k.isSome = true) {plaintext : Bytes}
    (hroom : plaintext.length + 16 ≤ outLen) :
    (encryptPayload S plaintext outLen).run self =
      .ok (sealed S plaintext self.sym)
        { self with sym := afterSealed S plaintext self.sym } := by
  simp [encryptPayload, onSym, encryptAndHash_run hk hroom]

theorem decryptPayload_run (hS : S.Lawful) {s : SymmetricState} (hs : self.sym = s)
    (hk : s.k.isSome = true) {plaintext : Bytes} (hroom : plaintext.length ≤ outLen) :
    (decryptPayload S (sealed S plaintext s) outLen).run self =
      .ok plaintext { self with sym := afterSealed S plaintext s } := by
  subst hs
  simp [decryptPayload, onSym, decryptAndHash_run hS hk hroom]

end NoiseXxResponder
end Noise
end Microfips

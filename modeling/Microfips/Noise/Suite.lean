import Mathlib.Data.List.Basic
import Microfips.Data.Bytes

/-!
# Primitives of the handshakes

The curve, the hash, the key derivation and the cipher come from other crates; a `Suite`
holds them as parameters, and `Suite.Lawful` names what those crates document about them.
Over a suite stand the helpers of `fips-noise`: x-only Diffie-Hellman, parity
normalisation, nonces and the two AEAD calls with their buffer checks.
-/

namespace Microfips
namespace Noise

/-- The functions of `k256`, `sha2`, `hkdf` and `chacha20poly1305` that the code calls. -/
structure Suite where
  /-- The compressed public key of a secret, `none` where the secret is not a scalar. -/
  publicKey : Block 32 → Option (Block 33)
  /-- The x coordinate of the shared point, `none` where either key is invalid. -/
  sharedX : Block 32 → Block 33 → Option (Block 32)
  sha256 : Bytes → Block 32
  /-- The two halves of a 64 byte expansion with salt `ck` and empty info. -/
  hkdf : Block 32 → Bytes → Block 32 × Block 32
  /-- Ciphertext and tag for key, nonce, associated data and plaintext. -/
  encrypt : Block 32 → Bytes → Bytes → Bytes → Bytes × Block 16
  /-- Plaintext for key, nonce, associated data, ciphertext and tag. -/
  decrypt : Block 32 → Bytes → Bytes → Bytes → Block 16 → Option Bytes
  encrypt_length : ∀ key nonce aad plain, (encrypt key nonce aad plain).1.length = plain.length
  decrypt_length : ∀ key nonce aad cipher tag plain,
    decrypt key nonce aad cipher tag = some plain → plain.length = cipher.length

/-- A compressed point carries its parity in the first byte. -/
def IsCompressed (p : Block 33) : Prop :=
  p.bytes.head? = some 0x02 ∨ p.bytes.head? = some 0x03

def SameX (p q : Block 33) : Prop :=
  p.bytes.drop 1 = q.bytes.drop 1

instance (p q : Block 33) : Decidable (SameX p q) :=
  inferInstanceAs (Decidable (_ = _))

/-- What the primitives guarantee: x-only Diffie-Hellman commutes and does not see the
parity of a key, and the cipher opens what it sealed. -/
structure Suite.Lawful (S : Suite) : Prop where
  publicKey_isCompressed : ∀ a A, S.publicKey a = some A → IsCompressed A
  sharedX_comm : ∀ a b A B, S.publicKey a = some A → S.publicKey b = some B →
    ∃ x, S.sharedX a B = some x ∧ S.sharedX b A = some x
  sharedX_sameX : ∀ a P Q, IsCompressed P → IsCompressed Q → SameX P Q →
    S.sharedX a P = S.sharedX a Q
  decrypt_encrypt : ∀ key nonce aad plain,
    S.decrypt key nonce aad (S.encrypt key nonce aad plain).1 (S.encrypt key nonce aad plain).2 =
      some plain

/-- Each of the two keys of a Diffie-Hellman is checked on its own. -/
def Suite.ChecksApart (S : Suite) : Prop :=
  ∀ a b A P x, S.publicKey a = some A → S.sharedX b P = some x → ∃ y, S.sharedX a P = some y

structure Keypair (S : Suite) where
  secret : Block 32
  pub : Block 33
  publicKey_secret : S.publicKey secret = some pub

/-- The initiator's copy of the responder's static key: the same x coordinate under
either parity. -/
structure HeldKey {S : Suite} (k : Keypair S) where
  pub : Block 33
  isCompressed : IsCompressed pub
  sameX : SameX pub k.pub

inductive NoiseError where
  | invalidKey
  | invalidMessage
  | invalidState
  | invalidPublicKey
  | decryptionFailed
  | encryptionFailed
  | bufferTooSmall
  | messageTooShort (expected got : ℕ)
  | messageTooLarge (size max : ℕ)
  deriving DecidableEq

def tagSize : ℕ := 16

def parityNormalize (pubkey : Block 33) : Block 33 where
  bytes := 0x02 :: pubkey.bytes.drop 1
  length_eq := by simp

def xOnlyEcdh (S : Suite) (mySecret : Block 32) (theirPub : Block 33) :
    Except NoiseError (Block 32) :=
  match S.sharedX mySecret theirPub with
  | none => .error .invalidKey
  | some x => .ok (S.sha256 x.bytes)

def ecdhPubkey (S : Suite) (secret : Block 32) : Except NoiseError (Block 33) :=
  match S.publicKey secret with
  | none => .error .invalidKey
  | some p => .ok p

def makeNonce (n : UInt64) : Bytes :=
  List.replicate 4 0 ++ Bytes.ofNat 8 n.toNat

/-- The bytes of `aead_encrypt` when the output buffer is large enough. -/
def sealBytes (S : Suite) (key : Block 32) (nonceCtr : UInt64) (aad plaintext : Bytes) : Bytes :=
  (S.encrypt key (makeNonce nonceCtr) aad plaintext).1 ++
    (S.encrypt key (makeNonce nonceCtr) aad plaintext).2.bytes

def aeadEncrypt (S : Suite) (key : Block 32) (nonceCtr : UInt64) (aad plaintext : Bytes)
    (outLen : ℕ) : Except NoiseError Bytes :=
  if outLen < plaintext.length + tagSize then
    .error .bufferTooSmall
  else
    .ok (sealBytes S key nonceCtr aad plaintext)

def aeadDecrypt (S : Suite) (key : Block 32) (nonceCtr : UInt64) (aad ciphertext : Bytes)
    (outLen : ℕ) : Except NoiseError Bytes :=
  if ciphertext.length < tagSize then
    .error .invalidMessage
  else
    let ptLen := ciphertext.length - tagSize
    if outLen < ptLen then
      .error .bufferTooSmall
    else
      match S.decrypt key (makeNonce nonceCtr) aad (ciphertext.take ptLen)
          (Block.ofBytes 16 (ciphertext.drop ptLen)) with
      | none => .error .decryptionFailed
      | some plaintext => .ok plaintext

@[simp]
theorem sealBytes_length (S : Suite) (key : Block 32) (n : UInt64) (aad plain : Bytes) :
    (sealBytes S key n aad plain).length = plain.length + 16 := by
  simp [sealBytes, S.encrypt_length]

variable {key : Block 32} {n : UInt64} {aad plain : Bytes} {outLen : ℕ}

theorem aeadEncrypt_eq_ok {S : Suite} (h : plain.length + tagSize ≤ outLen) :
    aeadEncrypt S key n aad plain outLen = .ok (sealBytes S key n aad plain) := by
  rw [aeadEncrypt, if_neg (by omega)]

theorem aeadEncrypt_length {S : Suite} {cipher : Bytes}
    (h : aeadEncrypt S key n aad plain outLen = .ok cipher) :
    cipher.length = plain.length + 16 := by
  rw [aeadEncrypt] at h
  split at h
  · cases h
  · cases h
    exact sealBytes_length S key n aad plain

theorem take_sealBytes (S : Suite) (key : Block 32) (n : UInt64) (aad plain : Bytes) :
    (sealBytes S key n aad plain).take plain.length = (S.encrypt key (makeNonce n) aad plain).1 :=
  List.take_left' (S.encrypt_length _ _ _ _)

theorem drop_sealBytes (S : Suite) (key : Block 32) (n : UInt64) (aad plain : Bytes) :
    (sealBytes S key n aad plain).drop plain.length =
      (S.encrypt key (makeNonce n) aad plain).2.bytes :=
  List.drop_left' (S.encrypt_length _ _ _ _)

theorem aeadDecrypt_sealBytes {S : Suite} (hS : S.Lawful) (key : Block 32) (n : UInt64)
    (aad : Bytes) (h : plain.length ≤ outLen) :
    aeadDecrypt S key n aad (sealBytes S key n aad plain) outLen = .ok plain := by
  have hnot : ¬ outLen < plain.length := by omega
  simp [aeadDecrypt, tagSize, hnot, take_sealBytes, drop_sealBytes, hS.decrypt_encrypt]

/-- What is read from sealed bytes, under any nonce and associated data, the cipher gave for
them. -/
theorem decrypt_of_aeadDecrypt_sealBytes {S : Suite} {m : UInt64} {aad' plain' : Bytes}
    (h : aeadDecrypt S key m aad' (sealBytes S key n aad plain) outLen = .ok plain') :
    S.decrypt key (makeNonce m) aad' (S.encrypt key (makeNonce n) aad plain).1
      (S.encrypt key (makeNonce n) aad plain).2 = some plain' := by
  rw [aeadDecrypt] at h
  split at h
  · cases h
  · dsimp only at h
    split at h
    · cases h
    · split at h
      · cases h
      · rename_i hopen
        obtain rfl := Except.ok.inj h
        simpa [tagSize, take_sealBytes, drop_sealBytes] using hopen

theorem parityNormalize_eq_of_sameX {p q : Block 33} (h : SameX p q) :
    parityNormalize p = parityNormalize q := by
  simp [parityNormalize, show p.bytes.drop 1 = q.bytes.drop 1 from h]

section Lawful

variable {S : Suite} (hS : S.Lawful)

include hS

theorem xOnlyEcdh_comm {a b : Block 32} {A B : Block 33} (hA : S.publicKey a = some A)
    (hB : S.publicKey b = some B) :
    ∃ dh, xOnlyEcdh S a B = .ok dh ∧ xOnlyEcdh S b A = .ok dh := by
  obtain ⟨x, hab, hba⟩ := hS.sharedX_comm a b A B hA hB
  exact ⟨S.sha256 x.bytes, by simp [xOnlyEcdh, hab], by simp [xOnlyEcdh, hba]⟩

theorem xOnlyEcdh_eq_of_sameX (a : Block 32) {P Q : Block 33} (hP : IsCompressed P)
    (hQ : IsCompressed Q) (h : SameX P Q) : xOnlyEcdh S a P = xOnlyEcdh S a Q := by
  simp [xOnlyEcdh, hS.sharedX_sameX a P Q hP hQ h]

end Lawful

theorem Keypair.ecdh_comm {S : Suite} (hS : S.Lawful) (a b : Keypair S) :
    ∃ dh, xOnlyEcdh S a.secret b.pub = .ok dh ∧ xOnlyEcdh S b.secret a.pub = .ok dh :=
  xOnlyEcdh_comm hS a.publicKey_secret b.publicKey_secret

theorem HeldKey.ecdh_comm {S : Suite} (hS : S.Lawful) {b : Keypair S} (rs : HeldKey b)
    (a : Keypair S) :
    ∃ dh, xOnlyEcdh S a.secret rs.pub = .ok dh ∧ xOnlyEcdh S b.secret a.pub = .ok dh := by
  obtain ⟨dh, hab, hba⟩ := a.ecdh_comm hS b
  have hb : IsCompressed b.pub := hS.publicKey_isCompressed _ _ b.publicKey_secret
  exact ⟨dh, (xOnlyEcdh_eq_of_sameX hS a.secret rs.isCompressed hb rs.sameX).trans hab, hba⟩

theorem ecdhPubkey_eq_ok {S : Suite} {a : Block 32} {A : Block 33}
    (h : S.publicKey a = some A) : ecdhPubkey S a = .ok A := by
  simp [ecdhPubkey, h]

end Noise
end Microfips

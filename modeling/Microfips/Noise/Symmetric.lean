import Microfips.Data.Fallible
import Microfips.Noise.Suite

/-!
# The symmetric state of a handshake

Each handshake role of `fips-noise` carries a transcript hash `h`, a chaining key `ck`, a
cipher key `k` and a nonce counter `n`, and updates them by the same few statements.
The statements are written here once.  A step that seals and the step that opens what it
sealed take equal symmetric states to equal symmetric states; the agreement of the
handshakes is a composition of such pairs.
-/

namespace Microfips
namespace Noise

structure SymmetricState where
  h : Block 32
  ck : Block 32
  k : Option (Block 32)
  n : UInt64
  deriving DecidableEq

namespace SymmetricState

/-- `h = hash_one(PROTOCOL_NAME)`, `ck = h`, no key yet. -/
def init (S : Suite) (protocolName : Bytes) : SymmetricState where
  h := S.sha256 protocolName
  ck := S.sha256 protocolName
  k := none
  n := 0

def mixHash (S : Suite) (data : Bytes) (s : SymmetricState) : SymmetricState :=
  { s with h := S.sha256 (s.h.bytes ++ data) }

def mixKey (S : Suite) (dh : Block 32) (s : SymmetricState) : SymmetricState :=
  { s with ck := (S.hkdf s.ck dh.bytes).1, k := some (S.hkdf s.ck dh.bytes).2, n := 0 }

/-- The updates after an AEAD call on `ciphertext`: `self.n += 1` and `mix_hash`. -/
def absorb (S : Suite) (ciphertext : Bytes) (s : SymmetricState) : SymmetricState :=
  { mixHash S ciphertext s with n := s.n + 1 }

def finalize (S : Suite) (s : SymmetricState) : Block 32 × Block 32 :=
  S.hkdf s.ck []

def encryptAndHash (S : Suite) (plaintext : Bytes) (outLen : ℕ) :
    EStateM (Fault NoiseError) SymmetricState Bytes := do
  let s ← get
  let k ← EStateM.unwrap s.k
  let ciphertext ← EStateM.ofExcept (aeadEncrypt S k s.n [] plaintext outLen)
  modify (absorb S ciphertext)
  return ciphertext

def decryptAndHash (S : Suite) (ciphertext : Bytes) (outLen : ℕ) :
    EStateM (Fault NoiseError) SymmetricState Bytes := do
  let s ← get
  let k ← EStateM.unwrap s.k
  let plaintext ← EStateM.ofExcept (aeadDecrypt S k s.n [] ciphertext outLen)
  modify (absorb S ciphertext)
  return plaintext

def decryptBlock (S : Suite) (ciphertext : Bytes) (n : ℕ) :
    EStateM (Fault NoiseError) SymmetricState (Block n) := do
  let plaintext ← decryptAndHash S ciphertext n
  return Block.ofBytes n plaintext

def sealed (S : Suite) (plaintext : Bytes) (s : SymmetricState) : Bytes :=
  match s.k with
  | some k => sealBytes S k s.n [] plaintext
  | none => []

/-- The state after `encryptAndHash`, and after the `decryptAndHash` that answers it. -/
def afterSealed (S : Suite) (plaintext : Bytes) (s : SymmetricState) : SymmetricState :=
  absorb S (sealed S plaintext s) s

/-- The tail of a message that transmits a static key: the sealed key, then `dh`, then the
sealed epoch. -/
def staticEpoch (S : Suite) (dh : Block 32) (static : Block 33) (epoch : Block 8)
    (s : SymmetricState) : Bytes :=
  sealed S static.bytes s ++ sealed S epoch.bytes (mixKey S dh (afterSealed S static.bytes s))

def afterStaticEpoch (S : Suite) (dh : Block 32) (static : Block 33) (epoch : Block 8)
    (s : SymmetricState) : SymmetricState :=
  afterSealed S epoch.bytes (mixKey S dh (afterSealed S static.bytes s))

@[simp]
theorem mixKey_isSome_k (S : Suite) (dh : Block 32) (s : SymmetricState) :
    (mixKey S dh s).k.isSome = true := by
  simp [mixKey]

@[simp]
theorem absorb_isSome_k (S : Suite) (c : Bytes) (s : SymmetricState) :
    (absorb S c s).k.isSome = s.k.isSome := by
  simp [absorb, mixHash]

@[simp]
theorem afterSealed_isSome_k (S : Suite) (p : Bytes) (s : SymmetricState) :
    (afterSealed S p s).k.isSome = s.k.isSome := by
  simp [afterSealed]

@[simp]
theorem afterStaticEpoch_isSome_k (S : Suite) (dh : Block 32) (static : Block 33)
    (epoch : Block 8) (s : SymmetricState) :
    (afterStaticEpoch S dh static epoch s).k.isSome = true := by
  simp [afterStaticEpoch]

theorem sealed_length {S : Suite} {s : SymmetricState} (hk : s.k.isSome = true)
    (plaintext : Bytes) : (sealed S plaintext s).length = plaintext.length + 16 := by
  obtain ⟨k, hk⟩ := Option.isSome_iff_exists.mp hk
  simp [sealed, hk]

theorem encryptAndHash_run {S : Suite} {s : SymmetricState} (hk : s.k.isSome = true)
    {plaintext : Bytes} {outLen : ℕ} (hroom : plaintext.length + 16 ≤ outLen) :
    (encryptAndHash S plaintext outLen).run s =
      .ok (sealed S plaintext s) (afterSealed S plaintext s) := by
  obtain ⟨k, hk⟩ := Option.isSome_iff_exists.mp hk
  have henc : aeadEncrypt S k s.n [] plaintext outLen =
      .ok (sealBytes S k s.n [] plaintext) := aeadEncrypt_eq_ok hroom
  simp [encryptAndHash, afterSealed, sealed, hk, henc]

theorem decryptAndHash_run {S : Suite} (hS : S.Lawful) {s : SymmetricState}
    (hk : s.k.isSome = true) {plaintext : Bytes} {outLen : ℕ}
    (hroom : plaintext.length ≤ outLen) :
    (decryptAndHash S (sealed S plaintext s) outLen).run s =
      .ok plaintext (afterSealed S plaintext s) := by
  obtain ⟨k, hk⟩ := Option.isSome_iff_exists.mp hk
  have hdec : aeadDecrypt S k s.n [] (sealBytes S k s.n [] plaintext) outLen =
      .ok plaintext := aeadDecrypt_sealBytes hS k s.n [] hroom
  simp [decryptAndHash, afterSealed, sealed, hk, hdec]

theorem decryptBlock_run {S : Suite} (hS : S.Lawful) {s : SymmetricState}
    (hk : s.k.isSome = true) {n : ℕ} (b : Block n) :
    (decryptBlock S (sealed S b.bytes s) n).run s =
      .ok b (afterSealed S b.bytes s) := by
  have hdec : (decryptAndHash S (sealed S b.bytes s) n).run s =
      .ok b.bytes (afterSealed S b.bytes s) := decryptAndHash_run hS hk (by simp)
  rw [decryptBlock, EStateM.run_bind_ok hdec]
  simp

section StaticEpoch

variable {S : Suite} {s : SymmetricState} (dh : Block 32) (static : Block 33) (epoch : Block 8)

theorem staticEpoch_length (hk : s.k.isSome = true) :
    (staticEpoch S dh static epoch s).length = 73 := by
  simp [staticEpoch, sealed_length, hk]

theorem staticEpoch_take (hk : s.k.isSome = true) :
    (staticEpoch S dh static epoch s).take 49 = sealed S static.bytes s :=
  List.take_left' (by simp [sealed_length, hk])

theorem staticEpoch_drop (hk : s.k.isSome = true) :
    (staticEpoch S dh static epoch s).drop 49 =
      sealed S epoch.bytes (mixKey S dh (afterSealed S static.bytes s)) :=
  List.drop_left' (by simp [sealed_length, hk])

end StaticEpoch

end SymmetricState
end Noise
end Microfips

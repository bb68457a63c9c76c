import Microfips.Noise.Suite

/-!
# A suite that computes

Every result about the handshakes holds for an arbitrary lawful suite.  The suite of this file
is one in which an exchange can be evaluated: a public key is its secret with a parity byte,
the shared coordinate is the bytewise sum of two secrets, key derivation is an affine map of
the bytes, and a tag is a sum over key, nonce, associated data and plaintext.
-/

namespace Microfips
namespace Noise
namespace Additive

def zipBlock {n : ℕ} (f : UInt8 → UInt8 → UInt8) (a b : Block n) : Block n where
  bytes := List.zipWith f a.bytes b.bytes
  length_eq := by simp

/-- The bytes of a string, summed in `n` columns. -/
def columns (n : ℕ) (b : Bytes) : Block n where
  bytes := (List.range n).map fun i =>
    ((List.range (b.length / n + 1)).map fun j => b.getD (i + n * j) 0).foldr (· + ·) 0
  length_eq := by simp

def coordinate (p : Block 33) : Block 32 where
  bytes := p.bytes.drop 1
  length_eq := by simp

def publicKey (a : Block 32) : Option (Block 33) :=
  some ⟨0x02 :: a.bytes, by simp⟩

def sharedX (a : Block 32) (p : Block 33) : Option (Block 32) :=
  if p.bytes.head? = some 0x02 ∨ p.bytes.head? = some 0x03 then
    some (zipBlock (· + ·) a (coordinate p))
  else
    none

def hkdf (ck : Block 32) (ikm : Bytes) : Block 32 × Block 32 :=
  (zipBlock (fun x y => 3 * x + y + 1) ck (columns 32 ikm),
    zipBlock (fun x y => 5 * x + y + 2) ck (columns 32 ikm))

def tag (key : Block 32) (nonce aad plain : Bytes) : Block 16 :=
  zipBlock (· + ·) (columns 16 key.bytes)
    (columns 16 (nonce ++ aad ++ plain))

def suite : Suite where
  publicKey := publicKey
  sharedX := sharedX
  sha256 := columns 32
  hkdf := hkdf
  encrypt key nonce aad plain := (plain, tag key nonce aad plain)
  decrypt key nonce aad cipher t := if t = tag key nonce aad cipher then some cipher else none
  encrypt_length := by simp
  decrypt_length := by simp +contextual

theorem zipBlock_add_comm {n : ℕ} (a b : Block n) :
    zipBlock (· + ·) a b = zipBlock (· + ·) b a := by
  ext1
  exact List.zipWith_comm_of_comm (fun x y => UInt8.add_comm x y)

theorem suite_lawful : suite.Lawful where
  publicKey_isCompressed a A h := by
    obtain rfl := Option.some.inj h
    exact Or.inl rfl
  sharedX_comm a b A B hA hB := by
    obtain rfl := Option.some.inj hA
    obtain rfl := Option.some.inj hB
    refine ⟨zipBlock (· + ·) a b, ?_, ?_⟩
    · simp [suite, sharedX, coordinate]
    · simp [suite, sharedX, coordinate, zipBlock_add_comm a b]
  sharedX_sameX a P Q hP hQ h := by
    have hcoord : coordinate P = coordinate Q := Block.ext h
    simp [suite, sharedX, show _ ∨ _ from hP, show _ ∨ _ from hQ, hcoord]
  decrypt_encrypt key nonce aad plain := by
    simp [suite]

theorem suite_checksApart : suite.ChecksApart := by
  intro a b A P x _ hb
  by_cases hP : P.bytes.head? = some 0x02 ∨ P.bytes.head? = some 0x03
  · exact ⟨zipBlock (· + ·) a (coordinate P), by simp [suite, sharedX, hP]⟩
  · simp [suite, sharedX, hP] at hb

/-- The suite with a tag that tells one nonce and associated data from all others. -/
def pinned (nonce aad : Bytes) : Suite where
  publicKey := publicKey
  sharedX := sharedX
  sha256 := columns 32
  hkdf := hkdf
  encrypt _ n a plain := (plain, Block.replicate 16 (if n = nonce ∧ a = aad then 1 else 0))
  decrypt _ n a cipher t :=
    if t = Block.replicate 16 (if n = nonce ∧ a = aad then 1 else 0) then some cipher else none
  encrypt_length := by simp
  decrypt_length := by simp +contextual

theorem pinned_lawful (nonce aad : Bytes) : (pinned nonce aad).Lawful where
  publicKey_isCompressed := suite_lawful.publicKey_isCompressed
  sharedX_comm := suite_lawful.sharedX_comm
  sharedX_sameX := suite_lawful.sharedX_sameX
  decrypt_encrypt key n a plain := by
    simp [pinned]

def keypair (x : UInt8) : Keypair suite where
  secret := Block.replicate 32 x
  pub := ⟨0x02 :: List.replicate 32 x, by simp⟩
  publicKey_secret := rfl

def oddKey (x : UInt8) : HeldKey (keypair x) where
  pub := ⟨0x03 :: List.replicate 32 x, by simp⟩
  isCompressed := Or.inr rfl
  sameX := rfl

end Additive
end Noise
end Microfips

import Microfips.Data.Bytes

/-!
# Integers in network order

The counterparts of `Bytes.ofNat` and `Bytes.toNat` with the most significant byte first.
-/

namespace Bytes

def ofNatBe (w x : ℕ) : Bytes :=
  (ofNat w x).reverse

def toNatBe (b : Bytes) : ℕ :=
  toNat b.reverse

@[simp]
theorem length_ofNatBe (w x : ℕ) : (ofNatBe w x).length = w := by
  rw [ofNatBe, List.length_reverse, ofNat_length]

@[simp]
theorem toNatBe_ofNatBe (w x : ℕ) : toNatBe (ofNatBe w x) = x % 256 ^ w := by
  rw [toNatBe, ofNatBe, List.reverse_reverse, toNat_ofNat]

end Bytes

import Microfips.Data.Bytes
import Microfips.Data.Regroup

/-!
# The `npub` codec

`npub_to_x_only` and `x_only_to_npub` of `fips-identity`, file `bech32.rs`: a 32-byte key as the
text `npub1` with 52 characters of five bits and six characters of checksum.  The 32-bit words of
the source are natural numbers here; the register of the checksum never leaves its 30 bits.
-/

namespace Microfips
namespace Identity

def ascii (text : List Char) : Bytes :=
  text.map fun c => UInt8.ofNat c.toNat

def charset : Bytes :=
  ascii ['q', 'p', 'z', 'r', 'y', '9', 'x', '8', 'g', 'f', '2', 't', 'v', 'd', 'w', '0', 's', '3',
    'j', 'n', '5', '4', 'k', 'h', 'c', 'e', '6', 'm', 'u', 'a', '7', 'l']

def gen : List ℕ := [0x3b6a57b2, 0x26508e6d, 0x1ea119fa, 0x3d4233dd, 0x2a1462b3]

def npubBech32Len : ℕ := 63

def charsetRev (c : UInt8) : Option ℕ :=
  charset.findIdx? (· = c)

def polymodStep (chk value : ℕ) : ℕ :=
  let top := chk >>> 25
  gen.zipIdx.foldl (fun chk gi => if (top >>> gi.2) &&& 1 = 1 then chk ^^^ gi.1 else chk)
    (((chk &&& 0x01ffffff) <<< 5) ^^^ value)

def toAsciiLowercase (c : UInt8) : UInt8 :=
  if 65 ≤ c ∧ c ≤ 90 then c + 32 else c

def hrp : Bytes := ascii ['n', 'p', 'u', 'b']

def hrpSeparated : Bytes := ascii ['n', 'p', 'u', 'b', '1']

def hrpChk : ℕ :=
  let chk := hrp.foldl (fun chk (b : UInt8) => polymodStep chk (b >>> 5).toNat) 1
  let chk := polymodStep chk 0
  hrp.foldl (fun chk (b : UInt8) => polymodStep chk (b &&& 0x1f).toNat) chk

def toBytes : Regroup.Widths where
  acc := 32
  source := 5
  target := 8
  room := 32

def toValues : Regroup.Widths where
  acc := 32
  source := 8
  target := 5
  room := 52

def bytesOfValues (payload : List ℕ) : Option (Block 32) :=
  match Regroup.regroup toBytes payload with
  | none => none
  | some r =>
      if r.out.length ≠ 32 ∨ r.acc &&& ((1 <<< r.bits) - 1) ≠ 0 then
        none
      else
        some (Block.ofBytes 32 (r.out.map UInt8.ofNat))

def npubToXOnly (s : Bytes) : Option (Block 32) :=
  if s.length ≠ npubBech32Len ∨ s.take 5 ≠ hrpSeparated then
    none
  else
    match (s.drop 5).mapM fun c => charsetRev (toAsciiLowercase c) with
    | none => none
    | some values =>
        if values.foldl polymodStep hrpChk ≠ 1 then
          none
        else
          bytesOfValues (values.take (values.length - 6))

/-- The start of `x_only_to_npub`: the key in 52 values, the last one padded with zero bits.  `none`
stands for an index beyond the array of the values. -/
def valuesOfBytes (key : Block 32) : Option (List ℕ) :=
  match Regroup.regroup toValues (key.bytes.map UInt8.toNat) with
  | none => none
  | some r =>
      if 0 < r.bits then
        if r.out.length < 52 then
          some ((r.out ++ [(r.acc <<< (5 - r.bits)) % 2 ^ 32 &&& 0x1f] ++
            List.replicate 52 0).take 52)
        else
          none
      else
        some ((r.out ++ List.replicate 52 0).take 52)

def checksumValues (values : List ℕ) : List ℕ :=
  let chk := values.foldl polymodStep hrpChk
  let chk := (List.replicate 6 0).foldl polymodStep chk
  let pm := chk ^^^ 1
  (List.range 6).map fun i => (pm >>> (5 * (5 - i))) &&& 0x1f

/-- `x_only_to_npub`; `none` stands for an index beyond an array or the character set. -/
def xOnlyToNpub (key : Block 32) : Option Bytes :=
  match valuesOfBytes key with
  | none => none
  | some values =>
      match (values ++ checksumValues values).mapM (charset[·]?) with
      | none => none
      | some data => some (hrpSeparated ++ data)

end Identity
end Microfips

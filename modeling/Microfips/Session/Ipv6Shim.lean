import Microfips.Data.Bytes

/-!
# The ICMPv6 echo responder

`icmpv6_echo_reply` of `microfips-core`, file `ipv6_shim.rs`: an echo request on the IPv6 shim
port is turned into its reply in place, with the checksum updated incrementally.
-/

namespace Microfips
namespace Session

/-- `checksum_update`: both additions of carries of the loop are written out, since the sum of
three 16 bit words needs no more than two. -/
def checksumUpdate (hc m mNew : UInt16) : UInt16 :=
  let sum := (~~~hc).toNat + (~~~m).toNat + mNew.toNat
  let sum := sum % 2 ^ 16 + sum / 2 ^ 16
  let sum := sum % 2 ^ 16 + sum / 2 ^ 16
  ~~~(UInt16.ofNat sum)

def beU16 (b : Bytes) (i : ℕ) : UInt16 :=
  UInt16.ofNat (256 * (b.getD i 0).toNat + (b.getD (i + 1) 0).toNat)

def icmpv6EchoReply (servicePayload : Bytes) (outLen : ℕ) : Option Bytes :=
  if servicePayload.length < 4 + 7 + 8 ∨ outLen < servicePayload.length then
    none
  else if Bytes.toNat (Bytes.slice 2 4 servicePayload) ≠ 256 then
    none
  else
    let shim := servicePayload.drop 4
    if shim.getD 0 0 ≠ 0x00 ∨ shim.getD 1 0 >>> 4 ≠ 6 ∨ shim.getD 5 0 ≠ 58 then
      none
    else
      let icmp := shim.drop 7
      if icmp.getD 0 0 ≠ 128 ∨ icmp.getD 1 0 ≠ 0 then
        none
      else
        let newSum := checksumUpdate (beU16 icmp 2) (UInt16.ofNat (256 * 128))
          (UInt16.ofNat (256 * 129))
        some (Bytes.slice 2 4 servicePayload ++ Bytes.slice 0 2 servicePayload ++
          shim.take 6 ++ [64] ++
          [129, icmp.getD 1 0, UInt8.ofNat (newSum.toNat / 256), UInt8.ofNat newSum.toNat] ++
          icmp.drop 4)

end Session
end Microfips

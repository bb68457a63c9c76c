import Microfips.Data.OnesComplement
import Microfips.Session.Ipv6Shim

/-!
# The checksum of an echo reply

The responder does not know the addresses of the pseudo-header, so it updates the checksum of the
request.  Here the full checksum is written out, as the tests of `ipv6_shim.rs` compute it, and the
update is compared with it.
-/

namespace Microfips
namespace Session

open OnesComplement

/-- `icmpv6_checksum` of the tests, without the bound of its 32-bit sum: the checksum over the
pseudo-header and the message. -/
def icmpv6Checksum (src dst : Block 16) (icmp : Bytes) : UInt16 :=
  ~~~UInt16.ofNat (foldCarries (wordSum src.bytes + wordSum dst.bytes +
    wordSum (Bytes.ofNat 4 icmp.length).reverse + wordSum [0, 0, 0, 58] + wordSum icmp))

theorem toNat_checksumUpdate (hc m mNew : UInt16) :
    (checksumUpdate hc m mNew).toNat =
      65535 - foldCarries ((~~~hc).toNat + (~~~m).toNat + mNew.toNat) := by
  have h₁ := (~~~hc).toNat_lt
  have h₂ := (~~~m).toNat_lt
  have h₃ := mNew.toNat_lt
  have hlt := foldCarries_lt ((~~~hc).toNat + (~~~m).toNat + mNew.toNat)
  rw [foldCarries_eq_twice (by omega)] at hlt ⊢
  rw [checksumUpdate, UInt16.toNat_not, UInt16.toNat_ofNat', Nat.mod_eq_of_lt hlt]
  rfl

/-- Changing one word of a message and updating its checksum leaves the sum of both as it was. -/
theorem checksumUpdate_modEq (hc m mNew : UInt16) :
    mNew.toNat + (checksumUpdate hc m mNew).toNat ≡ m.toNat + hc.toNat [MOD 65535] := by
  have hlt := foldCarries_lt ((~~~hc).toNat + (~~~m).toNat + mNew.toNat)
  have hmod := foldCarries_modEq ((~~~hc).toNat + (~~~m).toNat + mNew.toNat)
  have hhc := hc.toNat_lt
  have hm := m.toNat_lt
  have hnotHc : (~~~hc).toNat = 65535 - hc.toNat := UInt16.toNat_not hc
  have hnotM : (~~~m).toNat = 65535 - m.toNat := UInt16.toNat_not m
  rw [Nat.ModEq] at hmod ⊢
  rw [toNat_checksumUpdate]
  omega

theorem icmpv6Checksum_eq_zero (src dst : Block 16) (icmp : Bytes) :
    icmpv6Checksum src dst icmp = 0 ↔
      65535 ∣ wordSum src.bytes + wordSum dst.bytes +
        wordSum (Bytes.ofNat 4 icmp.length).reverse + 58 + wordSum icmp := by
  have hnext : wordSum [0, 0, 0, 58] = 58 := rfl
  rw [icmpv6Checksum, hnext, ← foldCarries_eq_max (by omega)]
  generalize wordSum src.bytes + wordSum dst.bytes +
    wordSum (Bytes.ofNat 4 icmp.length).reverse + 58 + wordSum icmp = sum
  have hlt := foldCarries_lt sum
  rw [← UInt16.toNat_inj, UInt16.toNat_not, UInt16.toNat_ofNat', Nat.mod_eq_of_lt hlt]
  change 65535 - foldCarries sum = 0 ↔ foldCarries sum = 65535
  omega

theorem toNat_beU16 (x y z w : UInt8) (rest : Bytes) :
    (beU16 (x :: y :: z :: w :: rest) 2).toNat = 256 * z.toNat + w.toNat := by
  have hz := z.toNat_lt
  have hw := w.toNat_lt
  change (UInt16.ofNat (256 * z.toNat + w.toNat)).toNat = _
  rw [UInt16.toNat_ofNat', Nat.mod_eq_of_lt (by omega)]

theorem toNat_beBytes (w : UInt16) :
    256 * (UInt8.ofNat (w.toNat / 256)).toNat + (UInt8.ofNat w.toNat).toNat = w.toNat := by
  have hw := w.toNat_lt
  simp only [UInt8.toNat_ofNat']
  omega

def replyMessage (c₀ c₁ : UInt8) (rest : Bytes) : Bytes :=
  let newSum := checksumUpdate (beU16 (128 :: 0 :: c₀ :: c₁ :: rest) 2) (UInt16.ofNat (256 * 128))
    (UInt16.ofNat (256 * 129))
  129 :: 0 :: UInt8.ofNat (newSum.toNat / 256) :: UInt8.ofNat newSum.toNat :: rest

theorem icmpv6EchoReply_eq_some {servicePayload reply : Bytes} {outLen : ℕ}
    (h : icmpv6EchoReply servicePayload outLen = some reply) :
    ∃ c₀ c₁ rest, 19 ≤ servicePayload.length ∧
      servicePayload.drop 11 = 128 :: 0 :: c₀ :: c₁ :: rest ∧
      reply = Bytes.slice 2 4 servicePayload ++ Bytes.slice 0 2 servicePayload ++
        Bytes.slice 4 10 servicePayload ++ [64] ++ replyMessage c₀ c₁ rest := by
  rw [icmpv6EchoReply] at h
  split at h
  · cases h
  rename_i hlen
  split at h
  · cases h
  dsimp only at h
  split at h
  · cases h
  split at h
  · cases h
  rename_i htype
  rw [List.drop_drop] at h htype
  have hlong : 19 ≤ servicePayload.length := by omega
  rcases hicmp : servicePayload.drop (4 + 7) with _ | ⟨type, _ | ⟨code, _ | ⟨c₀, _ | ⟨c₁, rest⟩⟩⟩⟩
  any_goals
    have hlength := congrArg List.length hicmp
    simp at hlength
    omega
  rw [hicmp] at h htype
  simp only [List.getD_cons_zero, List.getD_cons_succ, not_or, not_not] at htype
  rcases htype with ⟨rfl, rfl⟩
  refine ⟨c₀, c₁, rest, hlong, rfl, ?_⟩
  rw [← Option.some.inj h]
  simp [replyMessage, Bytes.slice]

/-- The reply verifies with the addresses swapped where the request verifies. -/
theorem icmpv6Checksum_reply (src dst : Block 16) (c₀ c₁ : UInt8) (rest : Bytes) :
    icmpv6Checksum dst src (replyMessage c₀ c₁ rest) = 0 ↔
      icmpv6Checksum src dst (128 :: 0 :: c₀ :: c₁ :: rest) = 0 := by
  have hlength : (replyMessage c₀ c₁ rest).length = (128 :: 0 :: c₀ :: c₁ :: rest).length := rfl
  have hupdate := checksumUpdate_modEq (beU16 (128 :: 0 :: c₀ :: c₁ :: rest) 2)
    (UInt16.ofNat (256 * 128)) (UInt16.ofNat (256 * 129))
  rw [icmpv6Checksum_eq_zero, icmpv6Checksum_eq_zero, hlength, replyMessage]
  simp only [wordSum_cons_cons]
  have hbytes := toNat_beBytes (checksumUpdate (beU16 (128 :: 0 :: c₀ :: c₁ :: rest) 2)
    (UInt16.ofNat (256 * 128)) (UInt16.ofNat (256 * 129)))
  rw [toNat_beU16, Nat.ModEq] at hupdate
  rw [hbytes]
  have hold : (UInt16.ofNat (256 * 128)).toNat = 256 * (128 : UInt8).toNat := by decide
  have hnew : (UInt16.ofNat (256 * 129)).toNat = 256 * (129 : UInt8).toNat := by decide
  have hcode : (0 : UInt8).toNat = 0 := rfl
  rw [hold, hnew] at hupdate
  rw [hcode]
  omega

/-- The places at which a reply may differ from its request: the ports, the hop limit, the type and
the checksum. -/
def rewrittenPlaces : List ℕ := [0, 1, 2, 3, 10, 11, 13, 14]

theorem getElem?_reply {servicePayload message rest : Bytes} {c₀ c₁ d₀ d₁ : UInt8}
    (hlong : 19 ≤ servicePayload.length)
    (hicmp : servicePayload.drop 11 = 128 :: 0 :: c₀ :: c₁ :: rest)
    (hmessage : message = 129 :: 0 :: d₀ :: d₁ :: rest) {i : ℕ} (hi : i ∉ rewrittenPlaces) :
    (Bytes.slice 2 4 servicePayload ++ Bytes.slice 0 2 servicePayload ++
      Bytes.slice 4 10 servicePayload ++ [64] ++ message)[i]? = servicePayload[i]? := by
  have hports : (Bytes.slice 2 4 servicePayload ++ Bytes.slice 0 2 servicePayload).length = 4 := by
    rw [List.length_append, Bytes.slice_length (by omega), Bytes.slice_length (by omega)]
  have hshim : (Bytes.slice 4 10 servicePayload).length = 6 := Bytes.slice_length (by omega)
  have hhead : (Bytes.slice 2 4 servicePayload ++ Bytes.slice 0 2 servicePayload ++
      Bytes.slice 4 10 servicePayload).length = 10 := by
    rw [List.length_append, hports, hshim]
  have hlength : (Bytes.slice 2 4 servicePayload ++ Bytes.slice 0 2 servicePayload ++
      Bytes.slice 4 10 servicePayload ++ [64]).length = 11 := by
    rw [List.length_append, hhead]
    rfl
  simp only [rewrittenPlaces, List.mem_cons, List.not_mem_nil, or_false, not_or] at hi
  rcases Nat.lt_or_ge i 10 with hlt | hge
  · rw [List.getElem?_append_left (by omega), List.getElem?_append_left (by omega),
      List.getElem?_append_right (by omega), hports, Bytes.slice,
      List.getElem?_take_of_lt (by omega),
      List.getElem?_drop]
    congr 1
    omega
  · have hdrop : servicePayload[i]? = (servicePayload.drop 11)[i - 11]? := by
      rw [List.getElem?_drop]
      congr 1
      omega
    rw [List.getElem?_append_right (by omega), hdrop, hicmp, hmessage, hlength]
    rcases hplace : i - 11 with _ | _ | _ | _ | k
    · omega
    · rfl
    · omega
    · omega
    · rfl

/-- The reply to an echo request: its checksum verifies with the addresses swapped exactly when that
of the request does, its ports are swapped, and it is the request at all places but those of the
ports, the hop limit, the type and the checksum. -/
theorem echo_reply_checksum {servicePayload reply : Bytes} {outLen : ℕ}
    (h : icmpv6EchoReply servicePayload outLen = some reply) :
    (∀ src dst : Block 16, icmpv6Checksum dst src (reply.drop 11) = 0 ↔
      icmpv6Checksum src dst (servicePayload.drop 11) = 0) ∧
    reply.length = servicePayload.length ∧
    Bytes.slice 0 2 reply = Bytes.slice 2 4 servicePayload ∧
    Bytes.slice 2 4 reply = Bytes.slice 0 2 servicePayload ∧
    ∀ i, i ∉ rewrittenPlaces → reply[i]? = servicePayload[i]? := by
  obtain ⟨c₀, c₁, rest, hlong, hicmp, rfl⟩ := icmpv6EchoReply_eq_some h
  have hsrc : (Bytes.slice 0 2 servicePayload).length = 2 := Bytes.slice_length (by omega)
  have hdst : (Bytes.slice 2 4 servicePayload).length = 2 := Bytes.slice_length (by omega)
  have hshim : (Bytes.slice 4 10 servicePayload).length = 6 := Bytes.slice_length (by omega)
  refine ⟨?_, ?_, ?_, ?_, fun i hi => getElem?_reply hlong hicmp rfl hi⟩
  · intro src dst
    rw [hicmp, List.drop_left' (by simp [hsrc, hdst, hshim])]
    exact icmpv6Checksum_reply src dst c₀ c₁ rest
  · have hlength := congrArg List.length hicmp
    simp only [List.length_drop, List.length_cons] at hlength
    simp only [List.length_append, hsrc, hdst, hshim, replyMessage, List.length_cons,
      List.length_nil]
    omega
  · simp only [List.append_assoc]
    exact List.take_left' hdst
  · simp only [List.append_assoc]
    rw [Bytes.slice, List.drop_left' hdst]
    exact List.take_left' hsrc

def pingRequest : Bytes :=
  [0x00, 0x01, 0x00, 0x01, 0x00, 0x60, 0x03, 0xd3, 0xeb, 58, 0x40,
    128, 0, 0xd6, 0xab, 0x25, 0x9a, 0, 1, 0x10, 0x11, 0x12, 0x13, 0x14]

theorem echo_reply_checksum_ping :
    ∃ reply, icmpv6EchoReply pingRequest 128 = some reply ∧
      icmpv6Checksum (.replicate 16 0xab) (.replicate 16 0xfd) (pingRequest.drop 11) = 0 ∧
      icmpv6Checksum (.replicate 16 0xfd) (.replicate 16 0xab) (reply.drop 11) = 0 := by
  have hverifies :
      icmpv6Checksum (.replicate 16 0xab) (.replicate 16 0xfd) (pingRequest.drop 11) = 0 := by
    rw [icmpv6Checksum_eq_zero]
    decide
  obtain ⟨reply, h⟩ := Option.isSome_iff_exists.mp
    (show (icmpv6EchoReply pingRequest 128).isSome by decide)
  exact ⟨reply, h, hverifies, ((echo_reply_checksum h).1 _ _).mpr hverifies⟩

end Session
end Microfips

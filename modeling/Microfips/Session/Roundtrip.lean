import Microfips.Session.Codec

/-!
# What is built is parsed

The builders of setups, acks and msg3 against their parsers: whatever flags, coordinates and
handshake bytes are written, the parser returns the handshake bytes, and for a setup also the flags
and the first source coordinate.  The prefix counts the bytes behind it, so that a message that was
cut off is an error.
-/

namespace Microfips
namespace Session

theorem fspPrefix_length (phase : Phase) (flags : UInt8) (n : ℕ) :
    (fspPrefix phase flags n).length = 4 := by
  simp [fspPrefix]

theorem coordBytes_length (coords : List (Block 16)) :
    (coordBytes coords).length = 2 + coords.length * 16 := by
  have hblocks : ((coords.map Block.bytes).flatten).length = coords.length * 16 := by
    induction coords with
    | nil => rfl
    | cons c coords ih =>
        simp only [List.map_cons, List.flatten_cons, List.length_append, ih, Block.length_bytes,
          List.length_cons]
        ring
  simp [coordBytes, hblocks]

theorem parseSessionBody_prefix (phase : Phase) (flags : UInt8) {body : Bytes}
    (hlen : body.length < 2 ^ 16) :
    parseSessionBody phase (fspPrefix phase flags body.length ++ body) = .ok body := by
  have hindex : (Bytes.index (fspPrefix phase flags body.length ++ body) 0 :
      Except (Fault FspError) UInt8) = .ok (phase.toUInt8 &&& 0x0F) := rfl
  have hcount : (Bytes.indexU16 (fspPrefix phase flags body.length ++ body) 2 :
      Except (Fault FspError) ℕ) = .ok body.length :=
    Bytes.indexU16_append [phase.toUInt8 &&& 0x0F, flags] body hlen
  have hphase : ¬ ((phase.toUInt8 &&& 0x0F) >>> 4 ≠ 0 ∨
      (phase.toUInt8 &&& 0x0F) &&& 0x0F ≠ phase.toUInt8) := by
    cases phase <;> decide
  have hdrop : (fspPrefix phase flags body.length ++ body).drop 4 = body :=
    List.drop_left' (fspPrefix_length _ _ _)
  rw [parseSessionBody, if_neg (by simp [fspPrefix_length])]
  simp only [hindex, hcount, hphase, hdrop, Except.ok_bind, if_false, lt_irrefl, List.take_length,
    Except.pure_eq_ok]

theorem skipCoords_append (a b : Bytes) {coords : List (Block 16)}
    (hlen : coords.length < 2 ^ 16) :
    skipCoords (a ++ (coordBytes coords ++ b)) a.length = .ok (a ++ coordBytes coords).length := by
  have hcount : (Bytes.indexU16 (a ++ (coordBytes coords ++ b)) a.length :
      Except (Fault FspError) ℕ) = .ok coords.length := by
    rw [coordBytes, List.append_assoc]
    exact Bytes.indexU16_append a _ hlen
  have hend : a.length + 2 + coords.length * 16 = (a ++ coordBytes coords).length := by
    rw [List.length_append, coordBytes_length]
    ring
  rw [skipCoords, hcount, Except.ok_bind, hend, if_neg]
  · rfl
  · simp

theorem parseHandshake_append (a : Bytes) {handshake : Bytes} (hlen : handshake.length < 2 ^ 16) :
    parseHandshake (a ++ (Bytes.ofNat 2 handshake.length ++ handshake)) a.length =
      .ok handshake := by
  have hcount : (Bytes.indexU16 (a ++ (Bytes.ofNat 2 handshake.length ++ handshake)) a.length :
      Except (Fault FspError) ℕ) = .ok handshake.length := Bytes.indexU16_append a handshake hlen
  have hrange : (Bytes.range (a ++ (Bytes.ofNat 2 handshake.length ++ handshake)) (a.length + 2)
      (a.length + 2 + handshake.length) : Except (Fault FspError) Bytes) = .ok handshake := by
    have h : (Bytes.range ((a ++ Bytes.ofNat 2 handshake.length) ++ (handshake ++ [])) _ _ :
        Except (Fault FspError) Bytes) = .ok handshake := Bytes.range_append _ handshake []
    simpa [List.append_assoc] using h
  have hsize : (a ++ (Bytes.ofNat 2 handshake.length ++ handshake)).length =
      a.length + (2 + handshake.length) := by
    rw [List.length_append, List.length_append, Bytes.ofNat_length]
  rw [parseHandshake, if_neg (by omega), hcount, Except.ok_bind, if_neg (by omega), hrange]

def handshakeBody (flags : UInt8) (srcCoords destCoords : List (Block 16)) (handshake : Bytes) :
    Bytes :=
  flags :: (coordBytes srcCoords ++ coordBytes destCoords ++ Bytes.ofNat 2 handshake.length ++
    handshake)

section Built

variable {phase : Phase} {flags : UInt8} {srcCoords destCoords : List (Block 16)}
  {handshake data : Bytes} {outLen : ℕ}

theorem handshakeBody_length :
    (handshakeBody flags srcCoords destCoords handshake).length =
      1 + (2 + srcCoords.length * 16) + (2 + destCoords.length * 16) + 2 + handshake.length := by
  simp [handshakeBody, coordBytes_length]
  omega

theorem buildSessionHandshake_ok (h : buildSessionHandshake phase flags srcCoords destCoords
    handshake outLen = .ok data) :
    srcCoords ≠ [] ∧ (handshakeBody flags srcCoords destCoords handshake).length < 2 ^ 16 ∧
      data = fspPrefix phase 0x00 (handshakeBody flags srcCoords destCoords handshake).length ++
        handshakeBody flags srcCoords destCoords handshake := by
  rw [buildSessionHandshake] at h
  rw [handshakeBody_length]
  split at h
  · cases h
  · rename_i hcoords
    dsimp only at h
    split at h
    · cases h
    · split at h
      · cases h
      · refine ⟨fun hnil => hcoords (by simp [hnil]), by omega, ?_⟩
        exact (Except.ok.inj h).symm

theorem buildSessionHandshake_eq_ok (hsrc : srcCoords ≠ []) (hdest : destCoords ≠ [])
    (hlen : (handshakeBody flags srcCoords destCoords handshake).length < 2 ^ 16)
    (hroom : 4 + (handshakeBody flags srcCoords destCoords handshake).length ≤ outLen) :
    buildSessionHandshake phase flags srcCoords destCoords handshake outLen =
      .ok (fspPrefix phase 0x00 (handshakeBody flags srcCoords destCoords handshake).length ++
        handshakeBody flags srcCoords destCoords handshake) := by
  have hcoords : ¬ (srcCoords.isEmpty || destCoords.isEmpty) = true := by simp [hsrc, hdest]
  rw [handshakeBody_length] at hlen hroom ⊢
  rw [buildSessionHandshake, if_neg hcoords]
  dsimp only
  rw [if_neg (by omega), if_neg (by omega)]
  rfl

theorem skipCoords_handshakeBody
    (hlen : (handshakeBody flags srcCoords destCoords handshake).length < 2 ^ 16) :
    let body := handshakeBody flags srcCoords destCoords handshake
    skipCoords body 1 = .ok ([flags] ++ coordBytes srcCoords).length ∧
      skipCoords body ([flags] ++ coordBytes srcCoords).length =
        .ok ([flags] ++ coordBytes srcCoords ++ coordBytes destCoords).length ∧
      parseHandshake body ([flags] ++ coordBytes srcCoords ++ coordBytes destCoords).length =
        .ok handshake := by
  rw [handshakeBody_length] at hlen
  have hsrc : srcCoords.length < 2 ^ 16 := by omega
  have hdest : destCoords.length < 2 ^ 16 := by omega
  have hhs : handshake.length < 2 ^ 16 := by omega
  refine ⟨?_, ?_, ?_⟩
  · have h := skipCoords_append [flags]
      (coordBytes destCoords ++ (Bytes.ofNat 2 handshake.length ++ handshake)) hsrc
    simpa [handshakeBody, List.append_assoc] using h
  · have h := skipCoords_append ([flags] ++ coordBytes srcCoords)
      (Bytes.ofNat 2 handshake.length ++ handshake) hdest
    simpa [handshakeBody, List.append_assoc] using h
  · have h := parseHandshake_append ([flags] ++ coordBytes srcCoords ++ coordBytes destCoords) hhs
    simpa [handshakeBody, List.append_assoc] using h

theorem parseSessionAck_buildSessionAck
    (h : buildSessionAck srcCoords destCoords handshake outLen = .ok data) :
    parseSessionAck data = .ok handshake := by
  obtain ⟨-, hlen, rfl⟩ := buildSessionHandshake_ok h
  obtain ⟨hsrc, hdest, hhs⟩ := skipCoords_handshakeBody hlen
  rw [parseSessionAck, parseSessionBody_prefix _ _ hlen, Except.ok_bind, if_neg, hsrc,
    Except.ok_bind, hdest, Except.ok_bind, hhs]
  simp [handshakeBody]

theorem parseSessionSetupFull_buildSessionSetup {first : Block 16} {rest : List (Block 16)}
    (h : buildSessionSetup flags (first :: rest) destCoords handshake outLen = .ok data) :
    parseSessionSetupFull data = .ok (flags, first, handshake) := by
  obtain ⟨-, hlen, rfl⟩ := buildSessionHandshake_ok h
  obtain ⟨hsrc, hdest, hhs⟩ := skipCoords_handshakeBody hlen
  have hbody := @handshakeBody_length flags (first :: rest) destCoords handshake
  have hflags : (Bytes.index (handshakeBody flags (first :: rest) destCoords handshake) 0 :
      Except (Fault FspError) UInt8) = .ok flags := rfl
  have hcount : (Bytes.indexU16 (handshakeBody flags (first :: rest) destCoords handshake) 1 :
      Except (Fault FspError) ℕ) = .ok (rest.length + 1) := by
    have h : (Bytes.indexU16 ([flags] ++ (Bytes.ofNat 2 (rest.length + 1) ++ _)) 1 :
        Except (Fault FspError) ℕ) = .ok (rest.length + 1) :=
      Bytes.indexU16_append [flags] (((first :: rest).map Block.bytes).flatten ++
        (coordBytes destCoords ++ (Bytes.ofNat 2 handshake.length ++ handshake)))
        (by rw [List.length_cons] at hbody; omega)
    simpa [handshakeBody, coordBytes, List.append_assoc] using h
  have hfirst : (Bytes.range (handshakeBody flags (first :: rest) destCoords handshake) 3 19 :
      Except (Fault FspError) Bytes) = .ok first.bytes := by
    have h : (Bytes.range ((flags :: Bytes.ofNat 2 (rest.length + 1)) ++ (first.bytes ++ _)) _ _ :
        Except (Fault FspError) Bytes) = .ok first.bytes :=
      Bytes.range_append _ _ ((rest.map Block.bytes).flatten ++
        (coordBytes destCoords ++ (Bytes.ofNat 2 handshake.length ++ handshake)))
    simpa [handshakeBody, coordBytes, List.append_assoc] using h
  rw [parseSessionSetupFull, parseSessionBody_prefix _ _ hlen, Except.ok_bind,
    if_neg (by rw [hbody, List.length_cons]; omega), hflags, Except.ok_bind, hcount,
    Except.ok_bind, if_neg (Nat.succ_ne_zero _), hfirst, Except.ok_bind, hsrc, Except.ok_bind,
    hdest, Except.ok_bind, hhs, Except.ok_bind, Block.ofBytes_bytes]
  rfl

theorem parseSessionMsg3_buildSessionMsg3 (hlen : 3 + handshake.length < 2 ^ 16)
    (h : buildSessionMsg3 handshake outLen = .ok data) : parseSessionMsg3 data = .ok handshake := by
  rw [buildSessionMsg3] at h
  split at h
  · cases h
  · obtain rfl := Except.ok.inj h
    have hbody : (0x00 :: (Bytes.ofNat 2 handshake.length ++ handshake)).length =
        1 + 2 + handshake.length := by
      simp
      omega
    have hcount : (Bytes.indexU16 (0x00 :: (Bytes.ofNat 2 handshake.length ++ handshake)) 1 :
        Except (Fault FspError) ℕ) = .ok handshake.length :=
      Bytes.indexU16_append [0x00] handshake (by omega)
    have hrange : (Bytes.range ((0x00 :: Bytes.ofNat 2 handshake.length) ++ (handshake ++ [])) _ _ :
        Except (Fault FspError) Bytes) = .ok handshake := Bytes.range_append _ handshake []
    rw [List.append_nil] at hrange
    rw [← hbody, parseSessionMsg3, parseSessionBody_prefix _ _ (by omega), Except.ok_bind,
      if_neg (by omega), hcount, Except.ok_bind, if_neg (by omega)]
    exact hrange

/-! ## Strict prefixes -/

variable {n : ℕ}

theorem parseSessionBody_take (phase : Phase) (flags : UInt8) {body : Bytes}
    (hlen : body.length < 2 ^ 16) (hn : n < (fspPrefix phase flags body.length ++ body).length) :
    parseSessionBody phase ((fspPrefix phase flags body.length ++ body).take n) =
      .error (.err .invalidFrame) := by
  rw [List.length_append, fspPrefix_length] at hn
  by_cases hshort : n < 4
  · have htake : ((fspPrefix phase flags body.length ++ body).take n).length < 4 := by
      rw [List.length_take]
      omega
    rw [parseSessionBody, if_pos htake]
    rfl
  · obtain ⟨k, rfl⟩ := Nat.exists_eq_add_of_le (Nat.not_lt.mp hshort)
    have htake : (fspPrefix phase flags body.length ++ body).take (4 + k) =
        fspPrefix phase flags body.length ++ body.take k := by
      rw [← fspPrefix_length phase flags body.length, List.take_length_add_append]
    have hindex : (Bytes.index (fspPrefix phase flags body.length ++ body.take k) 0 :
        Except (Fault FspError) UInt8) = .ok (phase.toUInt8 &&& 0x0F) := rfl
    have hcount : (Bytes.indexU16 (fspPrefix phase flags body.length ++ body.take k) 2 :
        Except (Fault FspError) ℕ) = .ok body.length :=
      Bytes.indexU16_append [phase.toUInt8 &&& 0x0F, flags] (body.take k) hlen
    have hphase : ¬ ((phase.toUInt8 &&& 0x0F) >>> 4 ≠ 0 ∨
        (phase.toUInt8 &&& 0x0F) &&& 0x0F ≠ phase.toUInt8) := by
      cases phase <;> decide
    have hdrop : (fspPrefix phase flags body.length ++ body.take k).drop 4 = body.take k :=
      List.drop_left' (fspPrefix_length _ _ _)
    have hcut : (body.take k).length < body.length := by
      rw [List.length_take]
      omega
    rw [htake, parseSessionBody, if_neg (by simp [fspPrefix_length]), hindex, Except.ok_bind,
      if_neg hphase, hcount, Except.ok_bind, hdrop, if_pos hcut]
    rfl

theorem parseSessionSetupFull_take
    (h : buildSessionSetup flags srcCoords destCoords handshake outLen = .ok data)
    (hn : n < data.length) : parseSessionSetupFull (data.take n) = .error (.err .invalidFrame) := by
  obtain ⟨-, hlen, rfl⟩ := buildSessionHandshake_ok h
  rw [parseSessionSetupFull, parseSessionBody_take _ _ hlen hn]
  rfl

theorem parseSessionAck_take (h : buildSessionAck srcCoords destCoords handshake outLen = .ok data)
    (hn : n < data.length) : parseSessionAck (data.take n) = .error (.err .invalidFrame) := by
  obtain ⟨-, hlen, rfl⟩ := buildSessionHandshake_ok h
  rw [parseSessionAck, parseSessionBody_take _ _ hlen hn]
  rfl

theorem parseSessionMsg3_take (hlen : 3 + handshake.length < 2 ^ 16)
    (h : buildSessionMsg3 handshake outLen = .ok data) (hn : n < data.length) :
    parseSessionMsg3 (data.take n) = .error (.err .invalidFrame) := by
  rw [buildSessionMsg3] at h
  split at h
  · cases h
  · obtain rfl := Except.ok.inj h
    have hbody : (0x00 :: (Bytes.ofNat 2 handshake.length ++ handshake)).length =
        1 + 2 + handshake.length := by
      simp
      omega
    rw [← hbody] at hn ⊢
    rw [parseSessionMsg3, parseSessionBody_take _ _ (by omega) hn]
    rfl

end Built

/-- What the builders of setups, acks and msg3 write is parsed as it was, as far as the parsers
expose it, and no strict prefix of it is accepted. -/
theorem handshake_codecs_round_trip :
    (∀ flags srcCoords destCoords handshake outLen data,
      buildSessionSetup flags srcCoords destCoords handshake outLen = .ok data →
        (∃ first ∈ srcCoords.head?, parseSessionSetupFull data = .ok (flags, first, handshake)) ∧
        parseSessionSetup data = .ok (flags, handshake) ∧
        ∀ n < data.length, (∃ e, parseSessionSetupFull (data.take n) = .error (.err e)) ∧
          ∃ e, parseSessionSetup (data.take n) = .error (.err e)) ∧
    (∀ srcCoords destCoords handshake outLen data,
      buildSessionAck srcCoords destCoords handshake outLen = .ok data →
        parseSessionAck data = .ok handshake ∧
        ∀ n < data.length, ∃ e, parseSessionAck (data.take n) = .error (.err e)) ∧
    ∀ (handshake : Bytes) outLen data, handshake.length ≤ 65532 →
      buildSessionMsg3 handshake outLen = .ok data →
        parseSessionMsg3 data = .ok handshake ∧
        ∀ n < data.length, ∃ e, parseSessionMsg3 (data.take n) = .error (.err e) := by
  refine ⟨?_, ?_, ?_⟩
  · intro flags srcCoords destCoords handshake outLen data h
    cases srcCoords with
    | nil => cases h
    | cons first rest =>
        have hfull := parseSessionSetupFull_buildSessionSetup h
        refine ⟨⟨first, rfl, hfull⟩, by rw [parseSessionSetup, hfull]; rfl, fun n hn => ?_⟩
        have hcut := parseSessionSetupFull_take h hn
        exact ⟨⟨_, hcut⟩, _, by rw [parseSessionSetup, hcut]; rfl⟩
  · intro srcCoords destCoords handshake outLen data h
    exact ⟨parseSessionAck_buildSessionAck h, fun n hn => ⟨_, parseSessionAck_take h hn⟩⟩
  · intro handshake outLen data hlen h
    exact ⟨parseSessionMsg3_buildSessionMsg3 (by omega) h, fun n hn =>
      ⟨_, parseSessionMsg3_take (by omega) h hn⟩⟩

theorem handshake_codecs_round_trip_msg3 :
    ∃ data, buildSessionMsg3 [1, 2, 3] 16 = .ok data ∧ parseSessionMsg3 data = .ok [1, 2, 3] := by
  obtain ⟨-, -, hmsg3⟩ := handshake_codecs_round_trip
  exact ⟨_, rfl, (hmsg3 [1, 2, 3] 16 _ (by decide) rfl).1⟩

end Session
end Microfips

import Microfips.Data.Hoare
import Microfips.Noise.IK
import Microfips.Noise.XK
import Microfips.Noise.XX

/-!
# Handshakes do not panic

The cipher key, the peer's ephemeral key and the own one are unwrapped by some of the methods of
the handshakes.  Each method is given here with the fields it needs and the fields it
leaves set, also when it fails.
-/

namespace Microfips
namespace Noise

open EStateM SymmetricState

namespace SymmetricState

variable {S : Suite} {s : SymmetricState}

theorem meets_encryptAndHash (hk : s.k.isSome = true) (plaintext : Bytes) (outLen : ℕ) :
    (encryptAndHash S plaintext outLen).Meets s
      (fun c t => t.k.isSome = true ∧ c.length = plaintext.length + 16)
      fun t => t.k.isSome = true := by
  obtain ⟨k, hk⟩ := Option.isSome_iff_exists.mp hk
  refine .get_bind ?_
  rw [hk]
  refine .unwrap_bind (.ofExcept_bind (by simp [hk]) fun c hc => ?_)
  refine .modify_bind (.pure ⟨by simp [hk], ?_⟩)
  exact aeadEncrypt_length hc

theorem meets_decryptAndHash (hk : s.k.isSome = true) (ciphertext : Bytes) (outLen : ℕ) :
    (decryptAndHash S ciphertext outLen).Meets s (fun _ t => t.k.isSome = true)
      fun t => t.k.isSome = true := by
  obtain ⟨k, hk⟩ := Option.isSome_iff_exists.mp hk
  refine .get_bind ?_
  rw [hk]
  refine .unwrap_bind (.ofExcept_bind (by simp [hk]) fun p _ => ?_)
  exact .modify_bind (.pure (by simp [hk]))

theorem meets_decryptBlock (hk : s.k.isSome = true) (ciphertext : Bytes) (n : ℕ) :
    (decryptBlock S ciphertext n).Meets s (fun _ t => t.k.isSome = true)
      fun t => t.k.isSome = true :=
  (meets_decryptAndHash hk ciphertext n).bind fun _ _ ht => .pure ht

end SymmetricState

namespace NoiseIkInitiator

variable {S : Suite} {i : NoiseIkInitiator}

theorem meets_writeMessage1 (static : Block 33) (epoch : Block 8) (outLen : ℕ) :
    (writeMessage1 S static epoch outLen).Meets i (fun _ _ => True) fun _ => True := by
  rw [writeMessage1]
  split
  · exact .throw_err trivial
  · refine .get_bind (.zoom_modify_bind (.ofExcept_bind trivial fun es _ => .zoom_modify_bind ?_))
    refine .bind (Q := fun _ _ => True) (.zoom ?_) fun c t _ => ?_
    · exact (meets_encryptAndHash (by simp) _ _).mono (fun _ _ _ => trivial) fun _ _ => trivial
    · refine .ofExcept_bind trivial fun ss _ => .zoom_modify_bind ?_
      refine .bind (Q := fun _ _ => True) (.zoom ?_) fun _ _ _ => .pure trivial
      exact (meets_encryptAndHash (by simp) _ _).mono (fun _ _ _ => trivial) fun _ _ => trivial

theorem meets_readMessage2 (payload : Bytes) :
    (readMessage2 S payload).Meets i (fun _ _ => True) fun _ => True := by
  rw [readMessage2]
  split
  · exact .throw_err trivial
  · refine .get_bind (.zoom_modify_bind (.ofExcept_bind trivial fun ee _ => .zoom_modify_bind ?_))
    refine .ofExcept_bind trivial fun se _ => .zoom_modify_bind (.zoom ?_)
    exact (meets_decryptBlock (by simp) _ _).mono (fun _ _ _ => trivial) fun _ _ => trivial

end NoiseIkInitiator

namespace NoiseIkResponder

variable {S : Suite} {r : NoiseIkResponder}

def Ready (r : NoiseIkResponder) : Prop :=
  r.sym.k.isSome = true

theorem ready_of_new {secret : Block 32} {eiPub : Block 33} (h : new S secret eiPub = .ok r) :
    r.Ready := by
  cases hpub : ecdhPubkey S secret with
  | error e =>
      rw [new, hpub] at h
      cases h
  | ok sPub =>
      cases hdh : xOnlyEcdh S secret eiPub with
      | error e =>
          rw [new, hpub, hdh] at h
          cases h
      | ok dh =>
          rw [new, hpub, hdh] at h
          cases h
          rfl

theorem meets_readMessage1 (hr : r.Ready) (payload : Bytes) :
    (readMessage1 S payload).Meets r (fun _ _ => True) fun _ => True := by
  rw [readMessage1]
  split
  · exact .throw_err trivial
  · refine .get_bind (.bind (Q := fun _ _ => True) (.mapErr _ (.zoom ?_)) fun static t _ => ?_)
    · exact (meets_decryptBlock hr _ _).mono (fun _ _ _ => trivial) fun _ _ => trivial
    · refine .mapErr_ofExcept_bind trivial fun ss _ => .zoom_modify_bind (.modify_bind ?_)
      refine .bind (Q := fun _ _ => True) (.mapErr _ (.zoom ?_)) fun _ _ _ => .pure trivial
      exact (meets_decryptBlock (by simp) _ _).mono (fun _ _ _ => trivial) fun _ _ => trivial

theorem meets_writeMessage2 (e : Block 32) (epoch : Block 8) (outLen : ℕ) :
    (writeMessage2 S e epoch outLen).Meets r (fun _ _ => True) fun _ => True := by
  rw [writeMessage2]
  split
  · exact .throw_err trivial
  · refine .get_bind (.mapErr_ofExcept_bind trivial fun ePub _ => .zoom_modify_bind ?_)
    refine .mapErr_ofExcept_bind trivial fun ee _ => .zoom_modify_bind ?_
    refine .mapErr_ofExcept_bind trivial fun se _ => .zoom_modify_bind ?_
    refine .bind (Q := fun _ _ => True) (.mapErr _ (.zoom ?_)) fun _ _ _ => .pure trivial
    exact (meets_encryptAndHash (by simp) _ _).mono (fun _ _ _ => trivial) fun _ _ => trivial

end NoiseIkResponder

namespace NoiseXkInitiator

variable {S : Suite} {i : NoiseXkInitiator}

def Ready (i : NoiseXkInitiator) : Prop :=
  i.sym.k.isSome = true ∧ i.rePub.isSome = true

theorem meets_readMessage2 (payload : Bytes) :
    (readMessage2 S payload).Meets i (fun _ t => t.Ready) fun _ => True := by
  rw [readMessage2]
  split
  · exact .throw_err trivial
  · refine .get_bind (.modify_bind (.zoom_modify_bind (.ofExcept_bind trivial fun ee _ => ?_)))
    refine .zoom_modify_bind (.zoom ((meets_decryptBlock (by simp) _ _).mono ?_ ?_))
    · exact fun _ t ht => ⟨ht, rfl⟩
    · exact fun _ _ => trivial

theorem meets_writeMessage3 (hi : i.Ready) (static : Block 33) (epoch : Block 8) (outLen : ℕ) :
    (writeMessage3 S static epoch outLen).Meets i (fun m _ => m.length = 73) fun _ => True := by
  rw [writeMessage3]
  split
  · exact .throw_err trivial
  · refine .bind (Q := fun c t => t.Ready ∧ c.length = 49) (.zoom ?_) fun c t ht => ?_
    · refine (meets_encryptAndHash hi.1 _ _).mono (fun c t ht => ⟨⟨ht.1, hi.2⟩, ?_⟩)
        fun _ _ => trivial
      simpa using ht.2
    · obtain ⟨rePub, hre⟩ := Option.isSome_iff_exists.mp ht.1.2
      refine .get_bind ?_
      rw [hre]
      refine .unwrap_bind (.ofExcept_bind trivial fun se _ => .zoom_modify_bind ?_)
      refine .bind (Q := fun c _ => c.length = 24) (.zoom ?_) fun c' _ hc' => .pure ?_
      · exact (meets_encryptAndHash (by simp) _ _).mono (fun c t ht => by simpa using ht.2)
          fun _ _ => trivial
      · simp [ht.2, hc']

end NoiseXkInitiator

namespace NoiseXkResponder

variable {S : Suite} {r : NoiseXkResponder}

def Ready (r : NoiseXkResponder) : Prop :=
  r.sym.k.isSome = true

theorem meets_writeMessage2 (e : Block 32) (epoch : Block 8) (outLen : ℕ) :
    (writeMessage2 S e epoch outLen).Meets r (fun _ t => t.Ready) fun _ => True := by
  rw [writeMessage2]
  split
  · exact .throw_err trivial
  · refine .modify_bind (.ofExcept_bind trivial fun ePub _ => .zoom_modify_bind (.get_bind ?_))
    refine .ofExcept_bind trivial fun ee _ => .zoom_modify_bind ?_
    refine .bind (Q := fun _ t => t.Ready) (.zoom ?_) fun _ _ ht => .pure ht
    exact (meets_encryptAndHash (by simp) _ _).mono (fun _ _ ht => ht.1) fun _ _ => trivial

theorem meets_readMessage3 (hr : r.Ready) (payload : Bytes) :
    (readMessage3 S payload).Meets r (fun _ t => t.Ready) fun t => t.Ready := by
  rw [readMessage3]
  split
  · exact .throw_err hr
  · refine .bind (Q := fun _ t => t.Ready) (.zoom (meets_decryptBlock hr _ _)) fun static t ht => ?_
    refine .get_bind (.ofExcept_bind ht fun ePriv _ => .ofExcept_bind ht fun se _ => ?_)
    refine .zoom_modify_bind ?_
    refine .bind (Q := fun _ t => t.Ready) (.zoom (meets_decryptBlock (by simp) _ _)) ?_
    exact fun _ _ ht => .pure ht

end NoiseXkResponder

namespace NoiseXxInitiator

variable {S : Suite} {i : NoiseXxInitiator}

def Ready (i : NoiseXxInitiator) : Prop :=
  i.sym.k.isSome = true

theorem meets_writeMessage1 (outLen : ℕ) :
    (writeMessage1 S outLen).Meets i (fun _ _ => True) fun _ => True := by
  rw [writeMessage1]
  split
  · exact .throw_err trivial
  · exact .get_bind (.zoom_modify_bind (.pure trivial))

/-- The initiator `t` is `i` after it has read msg2: it holds a key, and an ephemeral key of the
responder that its own has agreed with. -/
structure Met (S : Suite) (i t : NoiseXxInitiator) : Prop where
  ready : t.Ready
  sPriv_eq : t.sPriv = i.sPriv
  exists_rePub : ∃ rePub ee, t.rePub = some rePub ∧ xOnlyEcdh S i.ePriv rePub = .ok ee

theorem met_readMessage2 (payload : Bytes) :
    (readMessage2 S payload).Meets i (fun _ t => i.Met S t) fun _ => True := by
  rw [readMessage2]
  split
  · exact .throw_err trivial
  · refine .get_bind (.modify_bind (.zoom_modify_bind (.ofExcept_bind trivial fun ee hee => ?_)))
    refine .zoom_modify_bind ?_
    refine .bind (Q := fun _ t => i.Met S t) (.zoom ?_) fun rsPub t ht => ?_
    · exact (meets_decryptBlock (by simp) _ _).mono (fun _ _ h => ⟨h, rfl, _, ee, rfl, hee⟩)
        fun _ _ => trivial
    · refine .modify_bind (.ofExcept_bind trivial fun es _ => .zoom_modify_bind ?_)
      refine .bind (Q := fun _ t => i.Met S t) (.zoom ?_) fun _ _ ht => .pure ht
      exact (meets_decryptBlock (by simp) _ _).mono (fun _ _ h => ⟨h, ht.sPriv_eq, ht.exists_rePub⟩)
        fun _ _ => trivial

theorem meets_readMessage2 (payload : Bytes) :
    (readMessage2 S payload).Meets i (fun _ t => t.Ready) fun _ => True :=
  (met_readMessage2 payload).mono (fun _ _ ht => ht.ready) fun _ _ => trivial

theorem Met.decryptPayload {t : NoiseXxInitiator} (ht : i.Met S t) (ciphertext : Bytes)
    (outLen : ℕ) :
    (decryptPayload S ciphertext outLen).Meets t (fun _ u => i.Met S u) fun u => u.Ready :=
  .zoom ((meets_decryptAndHash ht.ready _ _).mono
    (fun _ _ hu => ⟨hu, ht.sPriv_eq, ht.exists_rePub⟩) fun _ hu => hu)

/-- Behind msg2 only the key agreement of `write_message3` can fail, and it does not where the
static secret is a secret. -/
theorem Met.writeMessage3 {t : NoiseXxInitiator} (hS : S.ChecksApart) {A : Block 33}
    (hA : S.publicKey i.sPriv = some A) (ht : i.Met S t) (static : Block 33) (epoch : Block 8)
    {outLen : ℕ} (hroom : 73 ≤ outLen) :
    ∃ m u, (writeMessage3 S static epoch outLen).run t = .ok m u ∧ m.length = 73 ∧
      u.sym.k.isSome = true := by
  obtain ⟨rePub, ee, hre, hee⟩ := ht.exists_rePub
  obtain ⟨x, hx⟩ : ∃ x, S.sharedX i.ePriv rePub = some x := by
    cases hx : S.sharedX i.ePriv rePub with
    | none => simp [xOnlyEcdh, hx] at hee
    | some x => exact ⟨x, rfl⟩
  obtain ⟨y, hy⟩ := hS _ _ _ _ _ hA hx
  have hse : xOnlyEcdh S t.sPriv rePub = .ok (S.sha256 y.bytes) := by
    rw [ht.sPriv_eq, xOnlyEcdh, hy]
  refine ⟨_, _, writeMessage3_run ht.ready hre hse static epoch hroom, ?_, ?_⟩
  · exact staticEpoch_length _ _ _ ht.ready
  · simp [afterStaticEpoch]

theorem meets_decryptPayload (hi : i.Ready) (ciphertext : Bytes) (outLen : ℕ) :
    (decryptPayload S ciphertext outLen).Meets i (fun _ t => t.Ready) fun t => t.Ready :=
  .zoom (meets_decryptAndHash hi _ _)

theorem meets_writeMessage3 (hi : i.Ready) (static : Block 33) (epoch : Block 8) (outLen : ℕ) :
    (writeMessage3 S static epoch outLen).Meets i (fun m t => t.Ready ∧ m.length = 73)
      fun _ => True := by
  rw [writeMessage3]
  split
  · exact .throw_err trivial
  · refine .get_bind (.ofExcept_bind trivial fun rePub _ => ?_)
    refine .bind (Q := fun c _ => c.length = 49) (.zoom ?_) fun c t hc => ?_
    · exact (meets_encryptAndHash hi _ _).mono (fun c t ht => by simpa using ht.2)
        fun _ _ => trivial
    · refine .ofExcept_bind trivial fun se _ => .zoom_modify_bind ?_
      refine .bind (Q := fun c t => t.Ready ∧ c.length = 24) (.zoom ?_) fun c' t hc' =>
        .pure ⟨hc'.1, by simp [hc, hc'.2]⟩
      exact (meets_encryptAndHash (by simp) _ _).mono (fun c t ht => ⟨ht.1, by simpa using ht.2⟩)
        fun _ _ => trivial

theorem meets_encryptPayload (hi : i.Ready) (plaintext : Bytes) (outLen : ℕ) :
    (encryptPayload S plaintext outLen).Meets i (fun c _ => c.length = plaintext.length + 16)
      fun _ => True :=
  .zoom ((meets_encryptAndHash hi _ _).mono (fun _ _ ht => ht.2) fun _ _ => trivial)

end NoiseXxInitiator

namespace NoiseXxResponder

variable {S : Suite} {r : NoiseXxResponder}

def Ready (r : NoiseXxResponder) : Prop :=
  r.sym.k.isSome = true ∧ r.ePriv.isSome = true

theorem meets_readMessage1 (payload : Bytes) :
    (readMessage1 S payload).Meets r (fun _ _ => True) fun _ => True := by
  rw [readMessage1]
  split
  · exact .throw_err trivial
  · exact .modify_bind trivial

theorem meets_writeMessage2 (e : Block 32) (epoch : Block 8) (outLen : ℕ) :
    (writeMessage2 S e epoch outLen).Meets r (fun _ t => t.Ready) fun _ => True := by
  rw [writeMessage2]
  split
  · exact .throw_err trivial
  · refine .get_bind (.ofExcept_bind trivial fun eiPub _ => .modify_bind ?_)
    refine .ofExcept_bind trivial fun ePub _ => .modify_bind (.zoom_modify_bind ?_)
    refine .ofExcept_bind trivial fun ee _ => .zoom_modify_bind ?_
    refine .bind (Q := fun _ t => t.Ready) (.zoom ?_) fun c t ht => ?_
    · exact (meets_encryptAndHash (by simp) _ _).mono (fun _ _ ht => ⟨ht.1, rfl⟩)
        fun _ _ => trivial
    · refine .ofExcept_bind trivial fun es _ => .zoom_modify_bind ?_
      refine .bind (Q := fun _ t => t.Ready) (.zoom ?_) fun _ _ ht => .pure ht
      exact (meets_encryptAndHash (by simp) _ _).mono (fun _ _ h => ⟨h.1, ht.2⟩)
        fun _ _ => trivial

theorem meets_encryptPayload (hr : r.Ready) (plaintext : Bytes) (outLen : ℕ) :
    (encryptPayload S plaintext outLen).Meets r (fun _ t => t.Ready) fun _ => True :=
  .zoom ((meets_encryptAndHash hr.1 _ _).mono (fun _ _ ht => ⟨ht.1, hr.2⟩) fun _ _ => trivial)

theorem meets_readMessage3 (hr : r.Ready) (payload : Bytes) :
    (readMessage3 S payload).Meets r (fun _ t => t.Ready) fun t => t.Ready := by
  rw [readMessage3]
  split
  · exact .throw_err hr
  · refine .bind (Q := fun _ t => t.Ready) (.zoom ?_) fun static t ht => ?_
    · exact (meets_decryptBlock hr.1 _ _).mono (fun _ _ ht => ⟨ht, hr.2⟩) fun _ ht => ⟨ht, hr.2⟩
    · obtain ⟨ePriv, he⟩ := Option.isSome_iff_exists.mp ht.2
      refine .modify_bind (.get_bind ?_)
      rw [he]
      refine .unwrap_bind (.ofExcept_bind ⟨ht.1, rfl⟩ fun se _ => .zoom_modify_bind ?_)
      refine .bind (Q := fun _ t => t.Ready) (.zoom ?_) fun _ _ ht => .pure ht
      exact (meets_decryptBlock (by simp) _ _).mono (fun _ _ h => ⟨h, rfl⟩) fun _ h => ⟨h, rfl⟩

theorem meets_decryptPayload (hr : r.Ready) (ciphertext : Bytes) (outLen : ℕ) :
    (decryptPayload S ciphertext outLen).Meets r (fun _ t => t.Ready) fun t => t.Ready :=
  .zoom ((meets_decryptAndHash hr.1 _ _).mono (fun _ _ ht => ⟨ht, hr.2⟩) fun _ ht => ⟨ht, hr.2⟩)

end NoiseXxResponder
end Noise
end Microfips

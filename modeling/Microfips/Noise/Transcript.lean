import Microfips.Data.Lockstep
import Microfips.Noise.XK
import Microfips.Noise.XX

/-!
# The transcript hash

The handshakes mix every message into the hash `h`, but seal and open with empty associated data,
and derive all keys from `ck`.  So two handshakes whose states differ in `h` at most read and write
the same messages and end with the same keys.  An initiator that reads msg2 also overwrites the
ephemeral key of an earlier msg2.
-/

namespace Microfips
namespace Noise

open EStateM

namespace SymmetricState

variable {S : Suite} {s t u : SymmetricState}

structure SameKeys (s t : SymmetricState) : Prop where
  ck_eq : s.ck = t.ck
  k_eq : s.k = t.k
  n_eq : s.n = t.n

namespace SameKeys

theorem refl (s : SymmetricState) : SameKeys s s :=
  ⟨rfl, rfl, rfl⟩

theorem trans (h : SameKeys s t) (h' : SameKeys t u) : SameKeys s u :=
  ⟨h.ck_eq.trans h'.ck_eq, h.k_eq.trans h'.k_eq, h.n_eq.trans h'.n_eq⟩

theorem mixHash (data : Bytes) : SameKeys s (mixHash S data s) :=
  ⟨rfl, rfl, rfl⟩

theorem mixHash_mixHash (h : SameKeys s t) (data : Bytes) :
    SameKeys (SymmetricState.mixHash S data s) (SymmetricState.mixHash S data t) :=
  ⟨h.ck_eq, h.k_eq, h.n_eq⟩

theorem mixKey (h : SameKeys s t) (dh : Block 32) :
    SameKeys (SymmetricState.mixKey S dh s) (SymmetricState.mixKey S dh t) := by
  refine ⟨?_, ?_, rfl⟩
  · rw [SymmetricState.mixKey, SymmetricState.mixKey, h.ck_eq]
  · rw [SymmetricState.mixKey, SymmetricState.mixKey, h.ck_eq]

theorem absorb (h : SameKeys s t) (ciphertext : Bytes) :
    SameKeys (SymmetricState.absorb S ciphertext s) (SymmetricState.absorb S ciphertext t) :=
  ⟨h.ck_eq, h.k_eq, congrArg (· + 1) h.n_eq⟩

theorem finalize_eq (h : SameKeys s t) : s.finalize S = t.finalize S := by
  rw [finalize, finalize, h.ck_eq]

end SameKeys

theorem inStep_encryptAndHash (plaintext : Bytes) (outLen : ℕ) :
    InStep SameKeys SameKeys SameKeys (encryptAndHash S plaintext outLen) := by
  refine .get_bind (fun s t h => by rw [h.k_eq, h.n_eq]) fun s => ?_
  refine .bind (.unwrap _ fun _ _ h => h) fun k => .bind (.ofExcept _ fun _ _ h => h) fun c => ?_
  exact .bind (.modify fun _ _ h => h.absorb c) fun _ => .pure c

theorem inStep_decryptAndHash (ciphertext : Bytes) (outLen : ℕ) :
    InStep SameKeys SameKeys SameKeys (decryptAndHash S ciphertext outLen) := by
  refine .get_bind (fun s t h => by rw [h.k_eq, h.n_eq]) fun s => ?_
  refine .bind (.unwrap _ fun _ _ h => h) fun k => .bind (.ofExcept _ fun _ _ h => h) fun p => ?_
  exact .bind (.modify fun _ _ h => h.absorb ciphertext) fun _ => .pure p

theorem inStep_decryptBlock (ciphertext : Bytes) (n : ℕ) :
    InStep SameKeys SameKeys SameKeys (decryptBlock S ciphertext n) :=
  .bind (inStep_decryptAndHash ciphertext n) fun _ => .pure _

end SymmetricState

open SymmetricState

namespace NoiseXkInitiator

variable {S : Suite} {i j l : NoiseXkInitiator}

def SameButHash : NoiseXkInitiator → NoiseXkInitiator → Prop :=
  Through sym (fun t self => { self with sym := t }) SameKeys

/-- Two initiators that differ in the transcript hash and in the ephemeral key of an answer at
most. -/
def SameButAnswer (i j : NoiseXkInitiator) : Prop :=
  ∃ u rePub, SameKeys i.sym u ∧ j = { i with sym := u, rePub := rePub }

theorem SameButHash.sameButAnswer (h : i.SameButHash j) : i.SameButAnswer j := by
  obtain ⟨u, hu, rfl⟩ := h
  exact ⟨u, i.rePub, hu, rfl⟩

theorem SameButAnswer.trans (h : i.SameButAnswer j) (h' : j.SameButAnswer l) :
    i.SameButAnswer l := by
  obtain ⟨u, re, hu, rfl⟩ := h
  obtain ⟨v, re', hv, rfl⟩ := h'
  exact ⟨v, re', hu.trans hv, rfl⟩

theorem inStep_onSym {α : Type} {m : EStateM (Fault NoiseError) SymmetricState α}
    (hm : InStep SameKeys SameKeys SameKeys m) :
    InStep SameButHash SameButHash SameButHash (onSym m) :=
  .zoom (fun _ _ => rfl) (fun _ _ _ => rfl) hm

theorem inStep_readMessage2 (payload : Bytes) :
    InStep SameButAnswer SameButHash SameButAnswer (readMessage2 S payload) := by
  rw [readMessage2]
  split
  · exact .throw _ fun _ _ h => h
  · refine .get_bind (by rintro i _ ⟨u, re, -, rfl⟩; rfl) fun self => ?_
    refine .bind (T := SameButHash) (.modify ?_) fun _ => ?_
    · rintro i _ ⟨u, re, hu, rfl⟩
      exact ⟨u, hu, rfl⟩
    · refine InStep.mono (E := SameButHash) ?_ fun _ _ h => h.sameButAnswer
      refine .bind (inStep_onSym (.modify fun _ _ h => h.mixHash_mixHash _)) fun _ => ?_
      refine .bind (.ofExcept _ fun _ _ h => h) fun ee => ?_
      refine .bind (inStep_onSym (.modify fun _ _ h => h.mixKey ee)) fun _ => ?_
      exact inStep_onSym (inStep_decryptBlock _ _)

theorem inStep_writeMessage3 (static : Block 33) (epoch : Block 8) (outLen : ℕ) :
    InStep SameButHash SameButHash SameButHash (writeMessage3 S static epoch outLen) := by
  rw [writeMessage3]
  split
  · exact .throw _ fun _ _ h => h
  · refine .bind (inStep_onSym (inStep_encryptAndHash _ _)) fun c => ?_
    refine .get_bind (by rintro i _ ⟨u, -, rfl⟩; rfl) fun self => ?_
    refine .bind (.unwrap _ fun _ _ h => h) fun rePub =>
      .bind (.ofExcept _ fun _ _ h => h) fun se => ?_
    refine .bind (inStep_onSym (.modify fun _ _ h => h.mixKey se)) fun _ => ?_
    exact .bind (inStep_onSym (inStep_encryptAndHash _ _)) fun _ => .pure _

/-- A msg2 of another length, or without a valid ephemeral key, is rejected before it changes the
keys. -/
theorem readMessage2_unreadable {payload : Bytes}
    (h : payload.length ≠ 33 + 8 + tagSize ∨
      ∀ ee, xOnlyEcdh S i.ePriv (Block.ofBytes 33 (payload.take 33)) ≠ .ok ee) :
    ∃ e j, (readMessage2 S payload).run i = .error (.err e) j ∧ i.SameButAnswer j := by
  by_cases hlen : payload.length ≠ 33 + 8 + tagSize
  · rw [readMessage2, if_pos hlen]
    exact ⟨_, i, rfl, i.sym, i.rePub, .refl _, rfl⟩
  · rw [readMessage2, if_neg hlen]
    have hee := h.resolve_left hlen
    cases hdh : xOnlyEcdh S i.ePriv (Block.ofBytes 33 (payload.take 33)) with
    | ok ee => exact absurd hdh (hee ee)
    | error e =>
        rw [run_get_bind]
        dsimp only
        rw [hdh]
        exact ⟨e, _, rfl, _, _, .mixHash _, rfl⟩

end NoiseXkInitiator

namespace NoiseXxInitiator

variable {S : Suite} {i j l : NoiseXxInitiator}

def SameButHash : NoiseXxInitiator → NoiseXxInitiator → Prop :=
  Through sym (fun t self => { self with sym := t }) SameKeys

def SameButAnswer (i j : NoiseXxInitiator) : Prop :=
  ∃ u rePub, SameKeys i.sym u ∧ j = { i with sym := u, rePub := rePub }

theorem SameButHash.sameButAnswer (h : i.SameButHash j) : i.SameButAnswer j := by
  obtain ⟨u, hu, rfl⟩ := h
  exact ⟨u, i.rePub, hu, rfl⟩

theorem SameButAnswer.trans (h : i.SameButAnswer j) (h' : j.SameButAnswer l) :
    i.SameButAnswer l := by
  obtain ⟨u, re, hu, rfl⟩ := h
  obtain ⟨v, re', hv, rfl⟩ := h'
  exact ⟨v, re', hu.trans hv, rfl⟩

theorem inStep_onSym {α : Type} {m : EStateM (Fault NoiseError) SymmetricState α}
    (hm : InStep SameKeys SameKeys SameKeys m) :
    InStep SameButHash SameButHash SameButHash (onSym m) :=
  .zoom (fun _ _ => rfl) (fun _ _ _ => rfl) hm

theorem inStep_readMessage2 (payload : Bytes) :
    InStep SameButAnswer SameButHash SameButAnswer (readMessage2 S payload) := by
  rw [readMessage2]
  split
  · exact .throw _ fun _ _ h => h
  · refine .get_bind (by rintro i _ ⟨u, re, -, rfl⟩; rfl) fun self => ?_
    refine .bind (T := SameButHash) (.modify ?_) fun _ => ?_
    · rintro i _ ⟨u, re, hu, rfl⟩
      exact ⟨u, hu, rfl⟩
    · refine InStep.mono (E := SameButHash) ?_ fun _ _ h => h.sameButAnswer
      refine .bind (inStep_onSym (.modify fun _ _ h => h.mixHash_mixHash _)) fun _ => ?_
      refine .bind (.ofExcept _ fun _ _ h => h) fun ee => ?_
      refine .bind (inStep_onSym (.modify fun _ _ h => h.mixKey ee)) fun _ => ?_
      refine .bind (inStep_onSym (inStep_decryptBlock _ _)) fun rsPub => ?_
      refine .bind (T := SameButHash) (.modify ?_) fun _ => ?_
      · rintro i _ ⟨u, hu, rfl⟩
        exact ⟨u, hu, rfl⟩
      · refine .bind (.ofExcept _ fun _ _ h => h) fun es => ?_
        refine .bind (inStep_onSym (.modify fun _ _ h => h.mixKey es)) fun _ => ?_
        exact .bind (inStep_onSym (inStep_decryptBlock _ _)) fun _ => .pure _

theorem inStep_decryptPayload (ciphertext : Bytes) (outLen : ℕ) :
    InStep SameButHash SameButHash SameButHash (decryptPayload S ciphertext outLen) :=
  inStep_onSym (inStep_decryptAndHash ciphertext outLen)

theorem inStep_writeMessage3 (static : Block 33) (epoch : Block 8) (outLen : ℕ) :
    InStep SameButHash SameButHash SameButHash (writeMessage3 S static epoch outLen) := by
  rw [writeMessage3]
  split
  · exact .throw _ fun _ _ h => h
  · refine .get_bind (by rintro i _ ⟨u, -, rfl⟩; rfl) fun self => ?_
    refine .bind (.ofExcept _ fun _ _ h => h) fun rePub => ?_
    refine .bind (inStep_onSym (inStep_encryptAndHash _ _)) fun c => ?_
    refine .bind (.ofExcept _ fun _ _ h => h) fun se => ?_
    refine .bind (inStep_onSym (.modify fun _ _ h => h.mixKey se)) fun _ => ?_
    exact .bind (inStep_onSym (inStep_encryptAndHash _ _)) fun _ => .pure _

theorem inStep_encryptPayload (plaintext : Bytes) (outLen : ℕ) :
    InStep SameButHash SameButHash SameButHash (encryptPayload S plaintext outLen) :=
  inStep_onSym (inStep_encryptAndHash plaintext outLen)

/-- A msg2 of another length, or without a valid ephemeral key, is rejected before it changes the
keys. -/
theorem readMessage2_unreadable {payload : Bytes}
    (h : payload.length ≠ xxHandshakeMsg2Size ∨
      ∀ ee, xOnlyEcdh S i.ePriv (Block.ofBytes 33 (payload.take 33)) ≠ .ok ee) :
    ∃ e j, (readMessage2 S payload).run i = .error (.err e) j ∧ i.SameButAnswer j := by
  by_cases hlen : payload.length ≠ xxHandshakeMsg2Size
  · rw [readMessage2, if_pos hlen]
    exact ⟨_, i, rfl, i.sym, i.rePub, .refl _, rfl⟩
  · rw [readMessage2, if_neg hlen]
    have hee := h.resolve_left hlen
    cases hdh : xOnlyEcdh S i.ePriv (Block.ofBytes 33 (payload.take 33)) with
    | ok ee => exact absurd hdh (hee ee)
    | error e =>
        rw [run_get_bind]
        dsimp only
        rw [hdh]
        exact ⟨e, _, rfl, _, _, .mixHash _, rfl⟩

end NoiseXxInitiator
end Noise
end Microfips

import Microfips.Noise.Safety
import Microfips.Session.Initiator

/-!
# Session messages do not panic

The parsers of setups and acks check that the coordinates behind a count fit the body, but not that
the count itself does.  A body that ends inside the count of its destination coordinates is read out
of bounds, and so is an ack body that ends inside the count of its source coordinates.  On every
other input the parsers return, and so do the methods of both roles as long as a responder that
waits for msg3 has the keys that it needs.
-/

namespace Microfips
namespace Session

open Noise Wire EStateM

def countAt (body : Bytes) (pos : ℕ) : ℕ :=
  (body.getD pos 0).toNat + 256 * (body.getD (pos + 1) 0).toNat

/-- A body with room for its source coordinates has room for the count that follows them. -/
def DestCountFits (body : Bytes) : Prop :=
  3 + 16 * countAt body 1 ≤ body.length → 5 + 16 * countAt body 1 ≤ body.length

instance (body : Bytes) : Decidable (DestCountFits body) :=
  inferInstanceAs (Decidable (_ → _))

def sessionBody (data : Bytes) : Bytes :=
  (data.drop 4).take (countAt data 2)

/-- The message `data` is of the phase `phase`. -/
def HasPhase (phase : Phase) (data : Bytes) : Prop :=
  data.getD 0 0 &&& 0x0F = phase.toUInt8

instance (phase : Phase) (data : Bytes) : Decidable (HasPhase phase data) :=
  inferInstanceAs (Decidable (_ = _))

def CountsFit (data : Bytes) : Prop :=
  (HasPhase .sessionSetup data → 19 ≤ (sessionBody data).length →
    DestCountFits (sessionBody data)) ∧
  (HasPhase .sessionAck data → 1 ≤ (sessionBody data).length →
    3 ≤ (sessionBody data).length ∧ DestCountFits (sessionBody data))

instance (data : Bytes) : Decidable (CountsFit data) :=
  inferInstanceAs (Decidable (_ ∧ _))

variable {data : Bytes}

theorem CountsFit.of_msg3 (h : HasPhase .sessionMsg3 data) : CountsFit data := by
  constructor
  · intro hsetup
    exact absurd (hsetup.symm.trans h) (by decide)
  · intro hack
    exact absurd (hack.symm.trans h) (by decide)

theorem safe_parseSessionBody (phase : Phase) (data : Bytes) :
    (parseSessionBody phase data).Safe fun body =>
      HasPhase phase data ∧ body = sessionBody data := by
  rw [parseSessionBody]
  split
  · trivial
  · refine (Bytes.safe_index (by omega)).bind fun verPhase hver => ?_
    split
    · trivial
    · rename_i hphase
      refine (Bytes.safe_indexU16 (by omega)).bind fun payloadLen hlen => ?_
      dsimp only
      split
      · trivial
      · refine ⟨?_, by rw [hlen]; rfl⟩
        rw [HasPhase, ← hver]
        exact not_not.mp fun h => hphase (.inr h)

theorem safe_skipCoords {body : Bytes} {pos : ℕ} (h : pos + 2 ≤ body.length) :
    (skipCoords body pos).Safe fun next =>
      next = pos + 2 + countAt body pos * 16 ∧ next ≤ body.length := by
  refine (Bytes.safe_indexU16 h).bind fun count hcount => ?_
  split
  · trivial
  · exact ⟨by rw [hcount]; rfl, by omega⟩

theorem safe_skipCoords_bind {body : Bytes} {α : Type} {Q : α → Prop}
    {f : ℕ → Except (Fault FspError) α} (hlen : 3 ≤ body.length) (hfit : DestCountFits body)
    (hf : ∀ pos, (f pos).Safe Q) :
    (do let pos ← skipCoords body 1; let pos ← skipCoords body pos; f pos).Safe Q := by
  refine (safe_skipCoords hlen).bind fun pos hpos => ?_
  have hdest : 5 + 16 * countAt body 1 ≤ body.length := hfit (by omega)
  exact (safe_skipCoords (by omega)).bind fun pos _ => hf pos

theorem safe_parseHandshake (body : Bytes) (pos : ℕ) :
    (parseHandshake body pos).Safe fun _ => True := by
  rw [parseHandshake]
  split
  · trivial
  · refine (Bytes.safe_indexU16 (by omega)).bind fun hsLen _ => ?_
    split
    · trivial
    · exact (Bytes.safe_range (by omega) (by omega)).mono fun _ _ => trivial

theorem safe_parseSessionSetupFull (hfit : CountsFit data) :
    (parseSessionSetupFull data).Safe fun _ => True := by
  refine (safe_parseSessionBody .sessionSetup data).bind fun body hbody => ?_
  obtain ⟨hphase, rfl⟩ := hbody
  split
  · trivial
  · have hlen : 19 ≤ (sessionBody data).length := by omega
    refine (Bytes.safe_index (by omega)).bind fun flags _ => ?_
    refine (Bytes.safe_indexU16 (by omega)).bind fun srcCount _ => ?_
    split
    · trivial
    · refine (Bytes.safe_range (by omega) hlen).bind fun srcFirst _ => ?_
      refine safe_skipCoords_bind (by omega) (hfit.1 hphase hlen) fun pos => ?_
      exact (safe_parseHandshake _ pos).bind fun _ _ => trivial

theorem safe_parseSessionAck (hfit : CountsFit data) :
    (parseSessionAck data).Safe fun _ => True := by
  refine (safe_parseSessionBody .sessionAck data).bind fun body hbody => ?_
  obtain ⟨hphase, rfl⟩ := hbody
  split
  · trivial
  · rename_i hempty
    obtain ⟨hlen, hdest⟩ := hfit.2 hphase (List.length_pos_iff.mpr fun h => hempty (by simp [h]))
    exact safe_skipCoords_bind hlen hdest fun pos => safe_parseHandshake _ pos

theorem safe_parseSessionMsg3 (data : Bytes) : (parseSessionMsg3 data).Safe fun _ => True := by
  refine (safe_parseSessionBody .sessionMsg3 data).bind fun body _ => ?_
  split
  · trivial
  · refine (Bytes.safe_indexU16 (by omega)).bind fun hsLen _ => ?_
    split
    · trivial
    · exact (Bytes.safe_range (by omega) (by omega)).mono fun _ _ => trivial

namespace SessionResponder

variable {S : Suite}

def Ready : SessionResponder → Prop
  | xk r => r.Ready
  | xx r => r.Ready

theorem meets_readMsg3 {r : SessionResponder} (hr : r.Ready) (handshake : Bytes) :
    (readMsg3 S handshake).Meets r (fun _ t => t.Ready) fun t => t.Ready := by
  cases r with
  | xk r =>
      refine Result.Meets.mapState (f := xk) ?_
      exact (NoiseXkResponder.meets_readMessage3 hr handshake).bind fun _ _ ht => .pure ht
  | xx r =>
      refine Result.Meets.mapState (f := xx) ?_
      refine (NoiseXxResponder.meets_readMessage3 hr _).bind fun p t ht => ?_
      cases (splitMsg3Noise handshake).2 with
      | none => exact .pure ht
      | some enc =>
          exact (Meets.ignore (NoiseXxResponder.meets_decryptPayload ht _ _)).bind fun _ _ ht =>
            .pure ht

end SessionResponder

namespace FspSession

variable {S : Suite} {build : Build} {s : FspSession}

def Sound (s : FspSession) : Prop :=
  ∀ r, s.responder = some r → r.Ready

theorem safe_answerSetup (mySecret myEphemeral : Block 32) (myEpoch : Block 8)
    (setupSrc : Block 16) (handshake : Bytes) (ackLen : ℕ) :
    (answerSetup S build mySecret myEphemeral myEpoch setupSrc handshake ackLen).Safe
      fun p => p.2.Ready := by
  rw [answerSetup]
  split
  · trivial
  · cases build with
    | ik =>
        refine ((Except.Safe.lift fun _ _ => trivial).mapError _).bind fun r (_ : True) => ?_
        refine ((NoiseXkResponder.meets_writeMessage2 _ _ _).call.mapError _).bind fun p hr => ?_
        refine ((Except.Safe.lift fun _ _ => trivial).mapError _).bind fun myPub (_ : True) => ?_
        exact ((Except.Safe.lift fun _ _ => trivial).mapError _).bind fun ack (_ : True) => hr
    | xx =>
        refine ((Except.Safe.lift fun _ _ => trivial).mapError _).bind fun r (_ : True) => ?_
        refine ((NoiseXxResponder.meets_readMessage1 _).call.mapError _).bind fun p _ => ?_
        refine ((NoiseXxResponder.meets_writeMessage2 _ _ _).call.mapError _).bind fun p hr => ?_
        refine ((Except.Safe.lift fun _ _ => trivial).mapError _).bind fun myPub (_ : True) => ?_
        split
        · trivial
        · refine ((NoiseXxResponder.meets_encryptPayload hr _ _).call.mapError _).bind
            fun p hr => ?_
          exact ((Except.Safe.lift fun _ _ => trivial).mapError _).bind fun ack (_ : True) => hr

theorem meets_handleSetup (mySecret myEphemeral : Block 32) (myEpoch : Block 8)
    {setupData : Bytes} (hfit : CountsFit setupData) (ackLen : ℕ) :
    (handleSetup S build mySecret myEphemeral myEpoch setupData ackLen).Meets s
      (fun _ _ => True) fun _ => True := by
  refine .get_bind ?_
  split
  · exact .throw_err trivial
  · obtain ⟨⟨_, setupSrc, handshake⟩, hparse, -⟩ | ⟨e, hparse⟩ :=
      ((safe_parseSessionSetupFull hfit).mapError FspSessionError.ofFsp).cases
    · simp only [hparse]
      obtain ⟨⟨ack, r⟩, hanswer, -⟩ | ⟨e, hanswer⟩ := (@safe_answerSetup S build mySecret
        myEphemeral myEpoch setupSrc handshake ackLen).cases
      · simp only [hanswer]
        exact .set_bind (.pure trivial)
      · simp only [hanswer]
        exact .throw_err trivial
    · simp only [hparse]
      exact .throw_err trivial

theorem meets_handleMsg3 (hs : s.Sound) (msg3Data : Bytes) :
    (handleMsg3 S build msg3Data).Meets s (fun _ _ => True) fun t => t.Sound := by
  refine .get_bind ?_
  split
  · exact .throw_err hs
  · obtain ⟨handshake, hparse, -⟩ | ⟨e, hparse⟩ :=
      ((safe_parseSessionMsg3 msg3Data).mapError FspSessionError.ofFsp).cases
    · simp only [hparse]
      split
      · cases hr : s.responder with
        | none => exact .throw_err hs
        | some r =>
            obtain ⟨static, r', hread, -⟩ | ⟨e, r', hread, hr'⟩ :=
              (SessionResponder.meets_readMsg3 (S := S) (hs r hr) handshake).cases
            · simp only [hread]
              trivial
            · simp only [hread]
              refine .set_bind (.throw_err fun r hr => ?_)
              exact Option.some.inj hr ▸ hr'
      · exact .throw_err hs
    · simp only [hparse]
      exact .throw_err hs

end FspSession

namespace SessionInitiator

variable {S : Suite} {i : SessionInitiator}

def Ready : SessionInitiator → Prop
  | xk i => i.Ready
  | xx i => i.Ready

theorem meets_readMsg2 (pinned : Block 33) (handshake : Bytes) :
    (readMsg2 S pinned handshake).Meets i (fun _ t => t.Ready) fun _ => True := by
  cases i with
  | xk i =>
      rw [Meets, EStateM.run, readMsg2]
      obtain ⟨epoch, t, hrun, ht⟩ | ⟨e, t, hrun, -⟩ :=
        (NoiseXkInitiator.meets_readMessage2 (S := S) (i := i) handshake).cases
      · rw [hrun]
        exact ht
      · rw [hrun]
        trivial
  | xx i =>
      rw [Meets, EStateM.run, readMsg2]
      obtain ⟨⟨respPub, epoch⟩, t, hrun, ht⟩ | ⟨e, t, hrun, -⟩ :=
        (NoiseXxInitiator.meets_readMessage2 (S := S) (i := i) (splitMsg2Noise handshake).1).cases
      · simp only [hrun]
        split
        · trivial
        · cases (splitMsg2Noise handshake).2 with
          | none => exact ht
          | some enc =>
              obtain ⟨_, t, hneg, ht⟩ | ⟨e, t, hneg, -⟩ := (Meets.ignore (E := fun _ => True)
                (NoiseXxInitiator.meets_decryptPayload (S := S) ht enc negotiationMaxSize)).cases
              · simp only [hneg]
                exact ht
              · simp only [hneg]
                trivial
      · simp only [hrun]
        trivial

theorem meets_writeMsg3 (hi : i.Ready) (myPub : Block 33) (epoch : Block 8) :
    (writeMsg3 S myPub epoch).Meets i (fun m _ => m.length ≤ 99) fun _ => True := by
  cases i with
  | xk i =>
      rw [Meets, EStateM.run, writeMsg3]
      obtain ⟨m, t, hrun, hm⟩ | ⟨e, t, hrun, -⟩ :=
        (NoiseXkInitiator.meets_writeMessage3 (S := S) hi myPub epoch 128).cases
      · rw [hrun]
        exact hm.trans_le (by decide)
      · rw [hrun]
        trivial
  | xx i =>
      rw [Meets, EStateM.run, writeMsg3]
      obtain ⟨m, t, hrun, ht, hm⟩ | ⟨e, t, hrun, -⟩ :=
        (NoiseXxInitiator.meets_writeMessage3 (S := S)
        hi myPub epoch (xxHandshakeMsg3Size + negotiationMaxSize + tagSize)).cases
      · simp only [hrun]
        cases hneg : encodePayload negotiationMaxSize 0 0 0 with
        | none => trivial
        | some neg =>
            obtain ⟨c, t, henc, hc⟩ | ⟨e, t, henc, -⟩ :=
              (NoiseXxInitiator.meets_encryptPayload (S := S) ht neg
                (xxHandshakeMsg3Size + negotiationMaxSize + tagSize - m.length)).cases
            · simp only [henc]
              simp only [Result.Meets, List.length_append, hm, hc, encodePayload_length hneg]
              decide
            · simp only [henc]
              trivial
      · simp only [hrun]
        trivial

end SessionInitiator

namespace FspInitiatorSession

variable {S : Suite} {s : FspInitiatorSession}

def Ready (s : FspInitiatorSession) : Prop :=
  ∀ i, s.initiator = some i → i.Ready

theorem meets_onInitiator {α : Type} {m : EStateM (Fault FspInitiatorError) SessionInitiator α}
    {Q : α → SessionInitiator → Prop}
    (hm : ∀ i, s.initiator = some i → m.Meets i Q fun _ => True) :
    (onInitiator m).Meets s (fun a t => ∃ i, t.initiator = some i ∧ Q a i) fun _ => True := by
  refine .get_bind ?_
  cases hi : s.initiator with
  | none => exact .throw_err trivial
  | some i =>
      obtain ⟨a, i, hrun, h⟩ | ⟨e, i, hrun, -⟩ := (hm i hi).cases
      · simp only [hrun]
        exact .set_bind (.pure ⟨i, rfl, h⟩)
      · simp only [hrun]
        exact .set_bind (.throw_err trivial)

theorem meets_handleAck {ackData : Bytes} (hfit : CountsFit ackData) :
    (handleAck S ackData).Meets s (fun _ t => t.Ready) fun _ => True := by
  refine .get_bind ?_
  split
  · exact .throw_err trivial
  · obtain ⟨handshake, hparse, -⟩ | ⟨e, hparse⟩ := (safe_parseSessionAck hfit).cases
    · simp only [hparse]
      refine (meets_onInitiator fun i _ => SessionInitiator.meets_readMsg2 _ _).bind
        fun _ t ⟨i, hi, hready⟩ j hj => ?_
      exact Option.some.inj (hi.symm.trans hj) ▸ hready
    · simp only [hparse]
      exact .throw_err trivial

theorem meets_buildMsg3 (hs : s.Ready) (epoch : Block 8) (outLen : ℕ) :
    (buildMsg3 S epoch outLen).Meets s (fun m _ => m.length ≤ 106) fun _ => True := by
  refine .get_bind ?_
  split
  · exact .throw_err trivial
  · refine (meets_onInitiator fun i hi => SessionInitiator.meets_writeMsg3 (hs i hi) _ _).bind
      fun msg3 t ⟨_, _, hlen⟩ => ?_
    rw [buildSessionMsg3]
    split
    · rename_i h
      exact .throw_err trivial
    · rename_i h
      split at h
      · cases h
      · cases h
        refine .modify_bind (.pure ?_)
        simp [fspPrefix]
        omega

end FspInitiatorSession
end Session
end Microfips

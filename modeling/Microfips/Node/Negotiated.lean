import Microfips.Node.Forgery
import Microfips.Node.Handover
import Microfips.Noise.Safety

/-!
# What a handshake negotiates

A node keeps the version, the profile and the wanted reports of its peer in four fields that
survive its sessions.  `apply_fmp_negotiation` writes them in the middle of an XX handshake: the
initiator still has to send msg3, and the responder still has to compare the static key of msg3
with the pinned one.  A peer that sends no negotiation payload leaves them as they are.
-/

namespace Microfips
namespace Node

open Noise Wire EStateM

structure Negotiated where
  fmpVersion : Option UInt8
  peerProfile : Option NodeProfile
  peerWantsSr : Bool
  peerWantsRr : Bool
  deriving DecidableEq

def Progress.Returned : Progress → Prop
  | .returns _ => True
  | .waits _ => False

namespace Handshake

variable {H M : Type}

def negotiation (s : Handshake H) : Negotiated where
  fmpVersion := s.fmpVersion
  peerProfile := s.peerProfile
  peerWantsSr := s.peerWantsSr
  peerWantsRr := s.peerWantsRr

def negotiationPart (H : Type) : Component (Handshake H) Negotiated where
  view := negotiation
  put n s :=
    { s with
      fmpVersion := n.fmpVersion
      peerProfile := n.peerProfile
      peerWantsSr := n.peerWantsSr
      peerWantsRr := n.peerWantsRr }
  view_put _ _ := rfl
  put_view _ := rfl
  put_put _ _ _ := rfl

theorem apart_negotiationPart : Apart (negotiationPart H) := by
  constructor <;> intros <;> rfl

variable (C : Config H M)

/-! ## The steps of a handshake -/

/-- A frame ends a wait: what the handshake holds, the frame, and how many calls went out. -/
structure Step where
  phase : Phase
  frame : Bytes
  calls : ℕ

def drainSteps : ℕ → Phase → Handshake H → List Step
  | 0, _, _ => []
  | fuel + 1, phase, s =>
      match (recvFrame C).run s with
      | .ok (some frame) t =>
          { phase, frame, calls := t.calls } ::
            match (onFrame C phase frame).run t with
            | .ok (.waits phase') u => drainSteps fuel phase' u
            | _ => []
      | _ => []

def receiveSteps (phase : Phase) (r : Reception) (s : Handshake H) : List Step :=
  match r with
  | .chunk data =>
      let b := s.toRecvBuffer.store C.rawFraming data
      drainSteps C (b.rbuf.length + 1) phase { s with toRecvBuffer := b }
  | _ => []

def awaitSteps : List Reception → Phase → Handshake H → List Step
  | [], _, _ => []
  | r :: rs, phase, s =>
      receiveSteps C phase r s ++
        match (receive C phase r).run s with
        | .ok (.waits phase') t => awaitSteps rs phase' t
        | _ => []

def steps (receptions : List Reception) (s : Handshake H) : List Step :=
  match (begin C).run s with
  | .ok phase t => awaitSteps C receptions phase t
  | .error _ _ => []

/-- The transport takes the frame that is sent behind `n` calls. -/
def Takes (n : ℕ) : Prop :=
  C.world.sendOk n = true ∧ (C.rawFraming = false → C.world.sendOk (n + 1) = true)

instance (n : ℕ) : Decidable (Takes C n) :=
  inferInstanceAs (Decidable (_ ∧ _))

/-- The static key in msg3, where it can be read, is that of the pinned peer. -/
def FromPeer (a : Answering) (noisePayload : Bytes) : Prop :=
  match (NoiseXxResponder.readMessage3 C.suite (splitMsg3Noise noisePayload).1).call
      a.responder with
  | .ok r => SameX r.1.1 C.peerNpub
  | .error _ => True

instance (a : Answering) (noisePayload : Bytes) : Decidable (FromPeer C a noisePayload) := by
  unfold FromPeer
  exact match (NoiseXxResponder.readMessage3 C.suite (splitMsg3Noise noisePayload).1).call
      a.responder with
    | .ok r => inferInstanceAs (Decidable (SameX r.1.1 C.peerNpub))
    | .error _ => inferInstanceAs (Decidable True)

/-- The messages that complete a handshake carry a negotiation payload.  Behind a msg2 the
transport takes our msg3, and msg3 comes from the pinned peer. -/
def Regular (step : Step) : Prop :=
  match step.phase, parseMessage C.build step.frame with
  | .opening _, some (.msg2 _ _ noisePayload) =>
      xxHandshakeMsg2Size < noisePayload.length ∧ Takes C step.calls
  | .answering a, some (.msg3 _ _ noisePayload) =>
      xxHandshakeMsg3Size < noisePayload.length ∧ FromPeer C a noisePayload
  | _, _ => True

instance : DecidablePred (Regular C) := fun step => by
  unfold Regular
  exact match step.phase, parseMessage C.build step.frame with
    | .opening _, some (.msg2 _ _ _) => inferInstanceAs (Decidable (_ ∧ _))
    | .answering _, some (.msg3 _ _ _) => inferInstanceAs (Decidable (_ ∧ _))
    | .opening _, none => inferInstanceAs (Decidable True)
    | .opening _, some (.msg1 _ _) => inferInstanceAs (Decidable True)
    | .opening _, some (.msg3 _ _ _) => inferInstanceAs (Decidable True)
    | .opening _, some (.established _ _ _) => inferInstanceAs (Decidable True)
    | .answering _, none => inferInstanceAs (Decidable True)
    | .answering _, some (.msg1 _ _) => inferInstanceAs (Decidable True)
    | .answering _, some (.msg2 _ _ _) => inferInstanceAs (Decidable True)
    | .answering _, some (.established _ _ _) => inferInstanceAs (Decidable True)

/-! ## The negotiation payload -/

/-- What a negotiation payload sets the fields to, if it is accepted. -/
def agreed (plain : Bytes) : Option Negotiated :=
  match NegotiationHeader.parse plain with
  | .error _ => none
  | .ok theirs =>
      match (ourNegotiation C).agreeVersion theirs, theirs.nodeProfile with
      | .error _, _ => none
      | .ok _, none => none
      | .ok version, some theirProfile =>
          if NodeProfile.validPairing C.ourProfile theirProfile then
            some
              { fmpVersion := some version
                peerProfile := some theirProfile
                peerWantsSr := theirs.features &&& fmpFeatWantsSr ≠ 0
                peerWantsRr := theirs.features &&& fmpFeatWantsRr ≠ 0 }
          else
            none

theorem applyFmpNegotiation_eq (plain : Bytes) :
    applyFmpNegotiation C plain =
      match agreed C plain with
      | none => throw (.err .invalidMessage)
      | some n => modify ((negotiationPart H).put n) := by
  unfold applyFmpNegotiation agreed
  cases NegotiationHeader.parse plain with
  | error e => rfl
  | ok theirs =>
      dsimp only
      cases (ourNegotiation C).agreeVersion theirs with
      | error e => rfl
      | ok version =>
          cases theirs.nodeProfile with
          | none => rfl
          | some profile =>
              dsimp only
              split
              · rfl
              · rfl

def block (frame : Bytes) : Option Bytes :=
  match parseMessage C.build frame with
  | some (.msg2 _ _ noisePayload) => (splitMsg2Noise noisePayload).2
  | some (.msg3 _ _ noisePayload) => (splitMsg3Noise noisePayload).2
  | _ => none

/-- The frame carries a payload that opens, and that sets the fields to `n`. -/
def Carries (frame : Bytes) (n : Negotiated) : Prop :=
  ∃ encrypted key nonce plain, block C frame = some encrypted ∧
    aeadDecrypt C.suite key nonce [] encrypted negotiationMaxSize = .ok plain ∧
    agreed C plain = some n

variable {C}

variable {σ α : Type} {object : σ} {s t : Handshake H} {hs : NoiseXxInitiator} {np frame : Bytes}
  {phase phase' : Phase} {fuel : ℕ} {receptions : List Reception} {outcome : Outcome}

theorem within_run {f : NoiseError → ProtocolError} {m : EStateM (Fault NoiseError) σ α} {r : α × σ}
    (h : (within f m object).run s = .ok r t) : m.run object = .ok r.1 r.2 ∧ t = s := by
  rw [within, EStateM.call] at h
  cases hrun : m.run object with
  | ok a object' =>
      rw [hrun] at h
      obtain ⟨rfl, rfl⟩ := Result.ok.inj h
      exact ⟨rfl, rfl⟩
  | error e object' =>
      rw [hrun] at h
      cases e <;> cases h

theorem within_eq {f : NoiseError → ProtocolError} {m : EStateM (Fault NoiseError) σ α}
    {object' : σ} {a : α} (h : m.run object = .ok a object') :
    (within f m object : HandshakeAction H (α × σ)) = pure (a, object') := by
  rw [within, EStateM.call, h]

/-- Code that accepts a negotiation payload and then returns replaces the negotiated fields. -/
theorem renewsAt_readNegotiation {e : ProtocolError}
    {decrypt : Bytes → EStateM (Fault NoiseError) σ Bytes} {encrypted : Bytes}
    {k : σ → HandshakeAction H α}
    (hk : ∀ plain object' n, (decrypt encrypted).run object = .ok plain object' →
      agreed C plain = some n → ∃ a t, (k object').run ((negotiationPart H).put n s) = .ok a t) :
    (negotiationPart H).RenewsAt (fun _ => True) s
      (readNegotiation C e decrypt (some encrypted) object >>= k) := by
  simp only [readNegotiation, bind_assoc, pure_bind]
  refine (Component.BlindAt.bind_renewsAt (blind_within _ _ _ s)) fun r t hr => ?_
  obtain ⟨hdecrypt, rfl⟩ := within_run hr
  rw [applyFmpNegotiation_eq]
  cases hagreed : agreed C r.1 with
  | none =>
      exact (Component.BlindAt.throw _ _).renewsAt (by rintro a u ⟨⟩)
  | some n =>
      obtain ⟨a, u, hrun⟩ := hk r.1 r.2 n hdecrypt hagreed
      exact .of_put_bind hrun trivial

theorem readNegotiation_run {e : ProtocolError}
    {decrypt : Bytes → EStateM (Fault NoiseError) σ Bytes} {encrypted : Bytes} {object' : σ}
    (h : (readNegotiation C e decrypt (some encrypted) object).run s = .ok object' t) :
    ∃ plain, (decrypt encrypted).run object = .ok plain object' ∧
      agreed C plain = some t.negotiation := by
  rw [readNegotiation] at h
  obtain ⟨r, u, hr, hrest⟩ := exists_of_run_bind h
  obtain ⟨hdecrypt, rfl⟩ := within_run hr
  obtain ⟨_, v, happly, hpure⟩ := exists_of_run_bind hrest
  obtain ⟨rfl, rfl⟩ := Result.ok.inj hpure
  rw [applyFmpNegotiation_eq] at happly
  cases hagreed : agreed C r.1 with
  | none =>
      rw [hagreed] at happly
      cases happly
  | some n =>
      rw [hagreed] at happly
      obtain ⟨-, rfl⟩ := Result.ok.inj happly
      exact ⟨r.1, hdecrypt, hagreed⟩

theorem exists_sendFrame (htakes : Takes C s.calls) (payload : Bytes) :
    ∃ t, (sendFrame C payload).run s = .ok ⟨⟩ t := by
  obtain ⟨hfirst, hsecond⟩ := htakes
  cases hraw : C.rawFraming with
  | true => exact ⟨_, by simp [sendFrame, sendParts, transportSend, ask, hraw, hfirst]; rfl⟩
  | false =>
      have hsecond := hsecond hraw
      exact ⟨_, by simp [sendFrame, sendParts, transportSend, ask, hraw, hfirst, hsecond]; rfl⟩

theorem exists_encodeNegotiation (C : Config H M) :
    ∃ neg, encodeNegotiation C = some neg ∧ neg.length = 10 := by
  rw [encodeNegotiation, encodePayload, if_neg (by decide)]
  exact ⟨_, rfl, by simp⟩

theorem exists_sendMsg3 (hS : C.suite.ChecksApart) {A : Block 33}
    (hA : C.suite.publicKey C.nsec = some A) {hs' : NoiseXxInitiator} (hpriv : hs.sPriv = C.nsec)
    (hmet : hs.Met C.suite hs') (htakes : Takes C s.calls) (o : Opening)
    (senderIdx : SessionIndex) : ∃ hs'' t, (sendMsg3 C o hs' senderIdx).run s = .ok hs'' t := by
  obtain ⟨m, u, hwrite, hlen, hk⟩ :=
    hmet.writeMessage3 hS (hpriv ▸ hA) o.myPub C.epoch
      (show 73 ≤ withNegotiation xxHandshakeMsg3Size by decide)
  obtain ⟨neg, hneg, hneglen⟩ := exists_encodeNegotiation C
  have hroom : neg.length + 16 ≤ withNegotiation xxHandshakeMsg3Size - m.length := by
    rw [hneglen, hlen]
    decide
  have hseal := NoiseXxInitiator.encryptPayload_run (S := C.suite) hk hroom
  have hsealed : (SymmetricState.sealed C.suite neg u.sym).length = 26 := by
    rw [SymmetricState.sealed_length hk, hneglen]
  obtain ⟨msg3, hbuild⟩ : ∃ msg3, buildMsg3 C.build o.ourIndex senderIdx
      (m ++ SymmetricState.sealed C.suite neg u.sym) 512 = some msg3 := by
    rw [buildMsg3, buildMsg, if_neg]
    · exact ⟨_, rfl⟩
    · simp only [List.length_append, hlen, hsealed, commonPrefixSize, idxSize]
      decide
  obtain ⟨t, hsend⟩ := exists_sendFrame htakes msg3
  refine ⟨{ u with sym := SymmetricState.afterSealed C.suite neg u.sym }, t, ?_⟩
  rw [sendMsg3, within_eq hwrite, pure_bind, hneg, okOr, pure_bind, within_eq hseal, pure_bind,
    hbuild,
    okOr, pure_bind, run_bind_ok hsend]
  rfl

theorem renewsAt_completeXx (hS : C.suite.ChecksApart) {A : Block 33}
    (hA : C.suite.publicKey C.nsec = some A) (hpriv : hs.sPriv = C.nsec)
    (hlong : xxHandshakeMsg2Size < np.length) (htakes : Takes C s.calls) (o : Opening)
    (senderIdx : SessionIndex) :
    (negotiationPart H).RenewsAt (fun _ => True) s (completeXx C o hs senderIdx np) := by
  have hsplit : splitMsg2Noise np =
      (np.take xxHandshakeMsg2Size, some (np.drop xxHandshakeMsg2Size)) :=
    if_pos hlong
  rw [completeXx, hsplit]
  refine (blind_within _ _ _ s).bind_renewsAt fun r t hr => ?_
  obtain ⟨hread, rfl⟩ := within_run hr
  have hmet : hs.Met C.suite r.2 := (NoiseXxInitiator.met_readMessage2 _).of_run_ok hread
  split
  · refine renewsAt_readNegotiation fun plain hs' n hdecrypt _ => ?_
    have hmet' : hs.Met C.suite hs' := (hmet.decryptPayload _ _).of_run_ok hdecrypt
    obtain ⟨hs'', u, hsend⟩ := exists_sendMsg3 hS hA hpriv hmet'
      (s := (negotiationPart H).put n t) htakes o senderIdx
    rw [run_bind_ok hsend]
    exact ⟨_, u, rfl⟩
  · exact (Component.BlindAt.throw _ _).renewsAt (by rintro a u ⟨⟩)

theorem renewsAt_acceptMsg3 {a : Answering} (hlong : xxHandshakeMsg3Size < np.length)
    (hpeer : FromPeer C a np) (s : Handshake H) :
    (negotiationPart H).RenewsAt (fun _ => True) s (acceptMsg3 C a np) := by
  have hsplit : splitMsg3Noise np =
      (np.take xxHandshakeMsg3Size, some (np.drop xxHandshakeMsg3Size)) :=
    if_pos hlong
  rw [FromPeer] at hpeer
  rw [acceptMsg3]
  rw [hsplit] at hpeer ⊢
  refine (blind_within _ _ _ s).bind_renewsAt fun r t hr => ?_
  obtain ⟨hread, rfl⟩ := within_run hr
  rw [EStateM.call_eq_ok hread] at hpeer
  refine renewsAt_readNegotiation fun plain responder n _ _ => ?_
  rw [if_pos (show SameX r.1.1 C.peerNpub from hpeer)]
  exact ⟨_, _, rfl⟩

theorem exists_waits_onMsg1 (hxx : C.build = .xx) {o : Opening} {peerSenderIdx : SessionIndex}
    {p : Progress} (h : (onMsg1 C o peerSenderIdx np).run s = .ok p t) :
    p = .waits (.opening o) ∨ ∃ a, p = .waits (.answering a) := by
  rw [onMsg1, EStateM.run_get_bind] at h
  split at h
  · cases h
  · split at h
    · obtain ⟨rfl, -⟩ := Result.ok.inj h
      exact .inl rfl
    · rw [answer, hxx] at h
      obtain ⟨a, u, -, hpure⟩ := exists_of_run_bind h
      obtain ⟨rfl, -⟩ := Result.ok.inj hpure
      exact .inr ⟨a, rfl⟩

def Prepared (C : Config H M) : Phase → Prop
  | .opening o => (∃ hs, o.initiator = .xx hs ∧ hs.sPriv = C.nsec) ∧
      ∃ A, C.suite.publicKey C.nsec = some A
  | .answering _ => True

theorem exists_newInitiator (hxx : C.build = .xx) {myPub : Block 33} {eph : Block 32}
    {r : Bytes × LinkInitiator} (h : (newInitiator C myPub eph).run s = .ok r t) :
    ∃ hs, r.2 = .xx hs ∧ hs.sPriv = C.nsec := by
  rw [newInitiator, hxx] at h
  obtain ⟨i, s₁, hnew, hrest⟩ := exists_of_run_bind h
  obtain ⟨m, s₂, hwrite, hpure⟩ := exists_of_run_bind hrest
  obtain ⟨rfl, -⟩ := Result.ok.inj hpure
  have hrun := (within_run hwrite).1
  rw [NoiseXxInitiator.writeMessage1_run _ (by decide)] at hrun
  refine ⟨m.2, rfl, ?_⟩
  rw [← (Result.ok.inj hrun).2]
  dsimp only
  cases hpub : ecdhPubkey C.suite eph with
  | error e =>
      rw [NoiseXxInitiator.new, hpub] at hnew
      cases hnew
  | ok ePub =>
      rw [NoiseXxInitiator.new, hpub] at hnew
      obtain ⟨rfl, -⟩ := Result.ok.inj hnew
      rfl

theorem prepared_begin (hxx : C.build = .xx) (h : (begin C).run s = .ok phase t) :
    Prepared C phase := by
  rw [begin] at h
  obtain ⟨myPub, s₁, hpub, hrest₁⟩ := exists_of_run_bind h
  obtain ⟨eph, s₂, -, hrest₂⟩ := exists_of_run_bind hrest₁
  obtain ⟨r, s₃, hnew, hrest₃⟩ := exists_of_run_bind hrest₂
  obtain ⟨ourIndex, s₄, -, hrest₄⟩ := exists_of_run_bind hrest₃
  obtain ⟨msg1, s₅, -, hrest₅⟩ := exists_of_run_bind hrest₄
  have hA : ∃ A, C.suite.publicKey C.nsec = some A := by
    cases hA : C.suite.publicKey C.nsec with
    | none =>
        rw [ecdhPubkey, hA] at hpub
        cases hpub
    | some A => exact ⟨A, rfl⟩
  have hxxinit : ∃ hs, r.2 = .xx hs ∧ hs.sPriv = C.nsec := exists_newInitiator hxx hnew
  rw [EStateM.run_get_bind] at hrest₅
  split at hrest₅
  · obtain ⟨rfl, -⟩ := Result.ok.inj hrest₅
    exact ⟨hxxinit, hA⟩
  · obtain ⟨_, s₆, -, hrest₆⟩ := exists_of_run_bind hrest₅
    obtain ⟨_, s₇, -, hpure⟩ := exists_of_run_bind hrest₆
    obtain ⟨rfl, -⟩ := Result.ok.inj hpure
    exact ⟨hxxinit, hA⟩

theorem prepared_onFrame (hxx : C.build = .xx) (hp : Prepared C phase)
    (h : (onFrame C phase frame).run s = .ok (.waits phase') t) : Prepared C phase' := by
  cases phase with
  | opening o =>
      rw [onFrame, onFrameOpening] at h
      split at h
      · cases h
      · obtain ⟨outcome, u, -, hpure⟩ := exists_of_run_bind h
        cases hpure
      · obtain hp' | ⟨a, ha⟩ := exists_waits_onMsg1 hxx h
        · cases hp'
          exact hp
        · cases ha
          trivial
      · cases h
        exact hp
  | answering a =>
      rw [onFrame, onFrameAnswering] at h
      split at h
      · cases h
      · obtain ⟨outcome, u, -, hpure⟩ := exists_of_run_bind h
        cases hpure
      · cases h
        trivial

theorem prepared_onTimeout (hp : Prepared C phase) (h : (onTimeout C phase).run s = .ok phase' t) :
    Prepared C phase' := by
  cases phase with
  | opening o =>
      obtain ⟨o', u, hopening, hpure⟩ := exists_of_run_bind h
      obtain ⟨rfl, -⟩ := Result.ok.inj hpure
      rw [onTimeoutOpening, EStateM.run_get_bind] at hopening
      split at hopening
      · cases hopening
      · split at hopening
        · obtain ⟨rfl, -⟩ := Result.ok.inj hopening
          exact hp
        · obtain ⟨_, v, -, hpure'⟩ := exists_of_run_bind hopening
          obtain ⟨rfl, -⟩ := Result.ok.inj hpure'
          exact hp
  | answering a =>
      obtain ⟨a', u, -, hpure⟩ := exists_of_run_bind h
      obtain ⟨rfl, -⟩ := Result.ok.inj hpure
      trivial

/-- On a regular step the handshake leaves the negotiated fields, or replaces them and returns. -/
theorem renewsAt_onFrame (hxx : C.build = .xx) (hS : C.suite.ChecksApart) (hp : Prepared C phase)
    (hstep : Regular C { phase, frame, calls := s.calls }) :
    (negotiationPart H).RenewsAt Progress.Returned s (onFrame C phase frame) := by
  rw [Regular] at hstep
  dsimp only at hstep
  cases phase with
  | opening o =>
      obtain ⟨⟨hs, ho, hpriv⟩, A, hA⟩ := hp
      rw [onFrame, onFrameOpening]
      cases hparse : parseMessage C.build frame with
      | none => exact (Component.BlindAt.throw _ _).renewsAt (by rintro a u ⟨⟩)
      | some message =>
          rw [hparse] at hstep
          cases message with
          | msg1 peerSenderIdx np =>
              refine (blind_onMsg1 apart_negotiationPart C _ _ _ s).renewsAt fun p t h => ?_
              obtain rfl | ⟨a, rfl⟩ := exists_waits_onMsg1 hxx h
              · exact id
              · exact id
          | msg2 senderIdx receiverIdx np =>
              dsimp only
              rw [complete, ho]
              refine (renewsAt_completeXx hS hA hpriv hstep.1 hstep.2 _ senderIdx).bind ?_ ?_
              · exact fun outcome _ => ⟨.returns outcome, rfl, trivial⟩
              · exact fun _ _ _ hnot => (hnot trivial).elim
          | msg3 senderIdx receiverIdx np =>
              exact (Component.BlindAt.pure _ _).renewsAt (by rintro a u ⟨⟩; exact id)
          | established receiverIdx counter encrypted =>
              exact (Component.BlindAt.pure _ _).renewsAt (by rintro a u ⟨⟩; exact id)
  | answering a =>
      rw [onFrame, onFrameAnswering]
      cases hparse : parseMessage C.build frame with
      | none => exact (Component.BlindAt.throw _ _).renewsAt (by rintro a u ⟨⟩)
      | some message =>
          rw [hparse] at hstep
          cases message with
          | msg3 senderIdx receiverIdx np =>
              refine (renewsAt_acceptMsg3 hstep.1 hstep.2 s).bind ?_ ?_
              · exact fun outcome _ => ⟨.returns outcome, rfl, trivial⟩
              · exact fun _ _ _ hnot => (hnot trivial).elim
          | msg1 peerSenderIdx np =>
              exact (Component.BlindAt.pure _ _).renewsAt (by rintro a u ⟨⟩; exact id)
          | msg2 senderIdx receiverIdx np =>
              exact (Component.BlindAt.pure _ _).renewsAt (by rintro a u ⟨⟩; exact id)
          | established receiverIdx counter encrypted =>
              exact (Component.BlindAt.pure _ _).renewsAt (by rintro a u ⟨⟩; exact id)

theorem blind_recvFrame (C : Config H M) : (negotiationPart H).Blind (recvFrame C) := by
  intro s x
  rw [recvFrame, EStateM.run_get_bind, EStateM.run_get_bind]
  have hbuffer : ((negotiationPart H).put x s).toRecvBuffer = s.toRecvBuffer := rfl
  rw [hbuffer]
  by_cases hpos : s.rbuf.length < s.rpos
  · rw [if_pos hpos, if_pos hpos]
    rfl
  · rw [if_neg hpos, if_neg hpos]
    dsimp only
    cases (s.toRecvBuffer.next C.build C.rawFraming).1 with
    | none => rfl
    | some frame => rfl

theorem renewsAt_drain (hxx : C.build = .xx) (hS : C.suite.ChecksApart) (hp : Prepared C phase)
    (hsteps : ∀ step ∈ drainSteps C fuel phase s, Regular C step) :
    (negotiationPart H).RenewsAt Progress.Returned s (drain C fuel phase) := by
  induction fuel generalizing phase s with
  | zero => exact (Component.BlindAt.pure _ _).renewsAt (by rintro a u ⟨⟩; exact id)
  | succ fuel ih =>
      rw [drain]
      refine (blind_recvFrame C s).bind_renewsAt fun received t hrecv => ?_
      cases received with
      | none => exact (Component.BlindAt.pure _ _).renewsAt (by rintro a u ⟨⟩; exact id)
      | some frame =>
          rw [drainSteps, hrecv] at hsteps
          have hstep := hsteps _ List.mem_cons_self
          refine (renewsAt_onFrame hxx hS hp hstep).bind ?_ fun p u hframe hp' => ?_
          · rintro (phase' | outcome) hreturned
            · exact hreturned.elim
            · exact ⟨.returns outcome, rfl, trivial⟩
          · cases p with
            | returns outcome => exact (hp' trivial).elim
            | waits phase' =>
                refine ih (prepared_onFrame hxx hp hframe) fun step hstep => hsteps step ?_
                dsimp only
                rw [hframe]
                exact List.mem_cons_of_mem _ hstep

theorem renewsAt_receive (hxx : C.build = .xx) (hS : C.suite.ChecksApart) (hp : Prepared C phase)
    {r : Reception} (hsteps : ∀ step ∈ receiveSteps C phase r s, Regular C step) :
    (negotiationPart H).RenewsAt Progress.Returned s (receive C phase r) := by
  cases r with
  | closed => exact (Component.BlindAt.throw _ _).renewsAt (by rintro a u ⟨⟩)
  | timeout =>
      refine ((blind_onTimeout apart_negotiationPart C phase s).bind fun _ => .pure _).renewsAt ?_
      intro p t h
      obtain ⟨phase', u, -, hpure⟩ := exists_of_run_bind h
      obtain ⟨rfl, -⟩ := Result.ok.inj hpure
      exact id
  | chunk data =>
      by_cases hlong : Steady.recvBufSize < data.length
      · refine .of_run_error (e := .panic) (t := s) ?_ fun x => ?_
        · rw [receive, EStateM.run_get_bind, if_pos hlong]
          rfl
        · rw [receive, EStateM.run_get_bind, if_pos hlong]
          rfl
      · refine (renewsAt_drain hxx hS hp hsteps).of_run_eq ?_ fun x => ?_
        · rw [receive, EStateM.run_get_bind, if_neg hlong]
          rfl
        · rw [receive, EStateM.run_get_bind, if_neg hlong]
          rfl

theorem prepared_drain (hxx : C.build = .xx) (hp : Prepared C phase)
    (h : (drain C fuel phase).run s = .ok (.waits phase') t) : Prepared C phase' := by
  induction fuel generalizing phase s with
  | zero =>
      cases h
      exact hp
  | succ fuel ih =>
      rw [drain] at h
      obtain ⟨received, u, -, hrest⟩ := exists_of_run_bind h
      cases received with
      | none =>
          cases hrest
          exact hp
      | some frame =>
          obtain ⟨p, v, hframe, hrest'⟩ := exists_of_run_bind hrest
          cases p with
          | returns outcome => cases hrest'
          | waits phase'' => exact ih (prepared_onFrame hxx hp hframe) hrest'

theorem prepared_receive (hxx : C.build = .xx) {r : Reception} (hp : Prepared C phase)
    (h : (receive C phase r).run s = .ok (.waits phase') t) : Prepared C phase' := by
  cases r with
  | closed => cases h
  | timeout =>
      obtain ⟨phase'', u, htimeout, hpure⟩ := exists_of_run_bind h
      cases hpure
      exact prepared_onTimeout hp htimeout
  | chunk data =>
      rw [receive, EStateM.run_get_bind] at h
      split at h
      · cases h
      · dsimp only at h
        rw [EStateM.run_set_bind] at h
        exact prepared_drain hxx hp h

theorem renewsAt_await (hxx : C.build = .xx) (hS : C.suite.ChecksApart) (hp : Prepared C phase)
    (hsteps : ∀ step ∈ awaitSteps C receptions phase s, Regular C step) :
    (negotiationPart H).RenewsAt (fun p => p.1.Returned) s (await C receptions phase) := by
  induction receptions generalizing phase s with
  | nil => exact (Component.BlindAt.pure _ _).renewsAt (by rintro a u ⟨⟩; exact id)
  | cons r receptions ih =>
      rw [await]
      rw [awaitSteps] at hsteps
      have hreceive := renewsAt_receive hxx hS hp fun step hstep =>
        hsteps step (List.mem_append_left _ hstep)
      refine hreceive.bind ?_ fun p t hrun hp' => ?_
      · rintro (phase' | outcome) hreturned
        · exact hreturned.elim
        · exact ⟨(.returns outcome, receptions), rfl, trivial⟩
      · cases p with
        | returns outcome => exact (hp' trivial).elim
        | waits phase' =>
            refine ih (prepared_receive hxx hp hrun) fun step hstep => hsteps step ?_
            rw [hrun]
            exact List.mem_append_right _ hstep

/-- A handshake all of whose steps are regular leaves the negotiated fields, or replaces them and
returns. -/
theorem renewsAt_run (hxx : C.build = .xx) (hS : C.suite.ChecksApart)
    (hsteps : ∀ step ∈ steps C receptions s, Regular C step) :
    (negotiationPart H).RenewsAt (fun p => p.1.Returned) s (run C receptions) := by
  refine (blind_begin apart_negotiationPart C s).bind_renewsAt fun phase t hbegin => ?_
  rw [steps, hbegin] at hsteps
  exact renewsAt_await hxx hS (prepared_begin hxx hbegin) hsteps

/-! ## The payload that was accepted -/

theorem exists_aeadDecrypt {S : Suite} {s t : SymmetricState} {ciphertext plain : Bytes}
    {outLen : ℕ}
    (h : (SymmetricState.decryptAndHash S ciphertext outLen).run s = .ok plain t) :
    ∃ key nonce, aeadDecrypt S key nonce [] ciphertext outLen = .ok plain := by
  rw [SymmetricState.decryptAndHash, EStateM.run_get_bind] at h
  obtain ⟨key, s₁, -, hrest⟩ := exists_of_run_bind h
  obtain ⟨plain', s₂, hopen, hrest'⟩ := exists_of_run_bind hrest
  obtain ⟨_, s₃, -, hpure⟩ := exists_of_run_bind hrest'
  obtain ⟨rfl, -⟩ := Result.ok.inj hpure
  exact ⟨key, s.n, (ofExcept_run_ok hopen).1⟩

theorem carries_completeXx {o : Opening} {senderIdx receiverIdx : SessionIndex}
    (hparse : parseMessage C.build frame = some (.msg2 senderIdx receiverIdx np))
    (hlong : xxHandshakeMsg2Size < np.length)
    (h : (completeXx C o hs senderIdx np).run s = .ok outcome t) :
    Carries C frame t.negotiation := by
  have hsplit : splitMsg2Noise np =
      (np.take xxHandshakeMsg2Size, some (np.drop xxHandshakeMsg2Size)) :=
    if_pos hlong
  rw [completeXx, hsplit] at h
  obtain ⟨r, s₁, -, hrest⟩ := exists_of_run_bind h
  split at hrest
  · obtain ⟨hs₂, s₂, hread, hrest'⟩ := exists_of_run_bind hrest
    obtain ⟨hs₃, s₃, hsend, hpure⟩ := exists_of_run_bind hrest'
    obtain ⟨-, rfl⟩ := Result.ok.inj hpure
    have hleaves : s₃.negotiation = s₂.negotiation :=
      ((blind_sendMsg3 apart_negotiationPart C o hs₂ senderIdx).leaves s₂).view_eq hsend
    obtain ⟨plain, hdecrypt, hagreed⟩ := readNegotiation_run hread
    obtain ⟨sym, hsym, -⟩ := exists_of_zoom hdecrypt
    obtain ⟨key, nonce, hopen⟩ := exists_aeadDecrypt hsym
    refine ⟨np.drop xxHandshakeMsg2Size, key, nonce, plain, ?_, hopen, hleaves ▸ hagreed⟩
    rw [block, hparse]
    dsimp only
    rw [hsplit]
  · cases hrest

theorem carries_acceptMsg3 {a : Answering} {senderIdx receiverIdx : SessionIndex}
    (hparse : parseMessage C.build frame = some (.msg3 senderIdx receiverIdx np))
    (hlong : xxHandshakeMsg3Size < np.length) (h : (acceptMsg3 C a np).run s = .ok outcome t) :
    Carries C frame t.negotiation := by
  have hsplit : splitMsg3Noise np =
      (np.take xxHandshakeMsg3Size, some (np.drop xxHandshakeMsg3Size)) :=
    if_pos hlong
  rw [acceptMsg3, hsplit] at h
  obtain ⟨r, s₁, -, hrest⟩ := exists_of_run_bind h
  obtain ⟨responder, s₂, hread, hrest'⟩ := exists_of_run_bind hrest
  obtain ⟨plain, hdecrypt, hagreed⟩ := readNegotiation_run hread
  obtain ⟨sym, hsym, -⟩ := exists_of_zoom hdecrypt
  obtain ⟨key, nonce, hopen⟩ := exists_aeadDecrypt hsym
  split at hrest'
  · obtain ⟨-, rfl⟩ := Result.ok.inj hrest'
    refine ⟨np.drop xxHandshakeMsg3Size, key, nonce, plain, ?_, hopen, hagreed⟩
    rw [block, hparse]
    dsimp only
    rw [hsplit]
  · cases hrest'

/-- A step on which an XX handshake returns sets the fields to what its frame carries. -/
theorem carries_onFrame (hxx : C.build = .xx) (step : Step) (hp : Prepared C step.phase)
    (hstep : Regular C step)
    (h : (onFrame C step.phase step.frame).run s = .ok (.returns outcome) t) :
    Carries C step.frame t.negotiation := by
  obtain ⟨phase, frame, calls⟩ := step
  rw [Regular] at hstep
  dsimp only at hp hstep h ⊢
  cases phase with
  | opening o =>
      obtain ⟨⟨hs, ho, -⟩, -⟩ := hp
      rw [onFrame, onFrameOpening] at h
      cases hparse : parseMessage C.build frame with
      | none =>
          rw [hparse] at h
          cases h
      | some message =>
          rw [hparse] at h hstep
          cases message with
          | msg1 peerSenderIdx np =>
              obtain hwaits | ⟨a, hwaits⟩ := exists_waits_onMsg1 hxx h
              · cases hwaits
              · cases hwaits
          | msg2 senderIdx receiverIdx np =>
              obtain ⟨outcome', u, hcomplete, hpure⟩ := exists_of_run_bind h
              cases hpure
              rw [complete, ho] at hcomplete
              exact carries_completeXx hparse hstep.1 hcomplete
          | msg3 senderIdx receiverIdx np => cases h
          | established receiverIdx counter encrypted => cases h
  | answering a =>
      rw [onFrame, onFrameAnswering] at h
      cases hparse : parseMessage C.build frame with
      | none =>
          rw [hparse] at h
          cases h
      | some message =>
          rw [hparse] at h hstep
          cases message with
          | msg1 peerSenderIdx np => cases h
          | msg2 senderIdx receiverIdx np => cases h
          | msg3 senderIdx receiverIdx np =>
              obtain ⟨outcome', u, haccept, hpure⟩ := exists_of_run_bind h
              cases hpure
              exact carries_acceptMsg3 hparse hstep.1 haccept
          | established receiverIdx counter encrypted => cases h

theorem received_recvFrame (h : (recvFrame C).run s = .ok (some frame) t) :
    t.received.head? = some frame := by
  rw [recvFrame, EStateM.run_get_bind] at h
  split at h
  · cases h
  · dsimp only at h
    split at h
    · cases h
    · cases h
      rfl

/-- A run of the loop that returns sets the fields to what the newest frame carries. -/
theorem carries_drain (hxx : C.build = .xx) (hp : Prepared C phase)
    (hsteps : ∀ step ∈ drainSteps C fuel phase s, Regular C step)
    (h : (drain C fuel phase).run s = .ok (.returns outcome) t) :
    ∃ frame, t.received.head? = some frame ∧ Carries C frame t.negotiation := by
  induction fuel generalizing phase s with
  | zero => cases h
  | succ fuel ih =>
      rw [drain] at h
      obtain ⟨received, u, hrecv, hrest⟩ := exists_of_run_bind h
      cases received with
      | none => cases hrest
      | some frame =>
          rw [drainSteps, hrecv] at hsteps
          dsimp only at hsteps
          obtain ⟨p, v, hframe, hrest'⟩ := exists_of_run_bind hrest
          cases p with
          | returns outcome' =>
              cases hrest'
              have hinbox := (leaves_onFrame C phase frame u).view_eq hframe
              have hreceived : t.received = u.received := congrArg Prod.snd hinbox
              refine ⟨frame, hreceived ▸ received_recvFrame hrecv, ?_⟩
              exact carries_onFrame hxx { phase, frame, calls := u.calls } hp
                (hsteps _ List.mem_cons_self) hframe
          | waits phase' =>
              rw [hframe] at hsteps
              exact ih (prepared_onFrame hxx hp hframe)
                (fun step hstep => hsteps step (List.mem_cons_of_mem _ hstep)) hrest'

theorem carries_await (hxx : C.build = .xx) {rest : List Reception} (hp : Prepared C phase)
    (hsteps : ∀ step ∈ awaitSteps C receptions phase s, Regular C step)
    (h : (await C receptions phase).run s = .ok (.returns outcome, rest) t) :
    ∃ frame, t.received.head? = some frame ∧ Carries C frame t.negotiation := by
  induction receptions generalizing phase s with
  | nil => cases h
  | cons r receptions ih =>
      rw [await] at h
      rw [awaitSteps] at hsteps
      obtain ⟨p, u, hreceive, hrest⟩ := exists_of_run_bind h
      cases p with
      | waits phase' =>
          refine ih (prepared_receive hxx hp hreceive) (fun step hstep => hsteps step ?_) hrest
          rw [hreceive]
          exact List.mem_append_right _ hstep
      | returns outcome' =>
          cases hrest
          cases r with
          | closed => cases hreceive
          | timeout =>
              obtain ⟨phase', v, -, hpure⟩ := exists_of_run_bind hreceive
              cases hpure
          | chunk data =>
              rw [receive, EStateM.run_get_bind] at hreceive
              split at hreceive
              · cases hreceive
              · dsimp only at hreceive
                rw [EStateM.run_set_bind] at hreceive
                exact carries_drain hxx hp
                  (fun step hstep => hsteps step (List.mem_append_left _ hstep)) hreceive

theorem carries_run (hxx : C.build = .xx) {rest : List Reception}
    (hsteps : ∀ step ∈ steps C receptions s, Regular C step)
    (h : (run C receptions).run s = .ok (.returns outcome, rest) t) :
    ∃ frame, t.received.head? = some frame ∧ Carries C frame t.negotiation := by
  obtain ⟨phase, u, hbegin, hrest⟩ := exists_of_run_bind h
  rw [steps, hbegin] at hsteps
  exact carries_await hxx (prepared_begin hxx hbegin) hsteps hrest

end Handshake

/-! ## The handshakes of a node -/

/-- A handshake of a node: its configuration, what the transport gives it, and the node before
it. -/
structure Attempt (H M : Type) where
  config : Config H M
  receptions : List Reception
  start : Handshake H

namespace Attempt

variable {H M : Type}

def resultFrom (n : Negotiated) (a : Attempt H M) :
    Result (Fault ProtocolError) (Handshake H) (Progress × List Reception) :=
  (Handshake.run a.config a.receptions).run ((Handshake.negotiationPart H).put n a.start)

def result (a : Attempt H M) :
    Result (Fault ProtocolError) (Handshake H) (Progress × List Reception) :=
  (Handshake.run a.config a.receptions).run a.start

def after (a : Attempt H M) : Handshake H :=
  a.result.state

/-- The next handshake begins with the negotiated fields that this one left. -/
def Follows (a b : Attempt H M) : Prop :=
  b.start.negotiation = a.after.negotiation

def blank : Negotiated where
  fmpVersion := none
  peerProfile := none
  peerWantsSr := false
  peerWantsRr := false

/-- What the handshake negotiates if it returns, from a node that has not yet negotiated. -/
def settled (a : Attempt H M) : Option Negotiated :=
  (returned (a.resultFrom blank)).map fun r => r.2.2.negotiation

structure Regular (a : Attempt H M) : Prop where
  build_eq : a.config.build = .xx
  checksApart : a.config.suite.ChecksApart
  step : ∀ step ∈ Handshake.steps a.config a.receptions a.start, Handshake.Regular a.config step

namespace Regular

variable {a : Attempt H M}

theorem renewsAt (ha : a.Regular) :
    (Handshake.negotiationPart H).RenewsAt (fun p => p.1.Returned) a.start
      (Handshake.run a.config a.receptions) :=
  Handshake.renewsAt_run ha.build_eq ha.checksApart ha.step

/-- What a handshake leaves in the fields: what it negotiated, or what was there. -/
theorem negotiation_after (ha : a.Regular) :
    a.after.negotiation = a.settled.getD a.start.negotiation := by
  rw [after, settled, result, resultFrom]
  cases hrun : (Handshake.run a.config a.receptions).run a.start with
  | error e t =>
      rw [ha.renewsAt.of_error e t hrun blank]
      exact ha.renewsAt.view_eq_of_error hrun
  | ok p t =>
      obtain ⟨p, rest⟩ := p
      cases p with
      | waits phase =>
          rw [ha.renewsAt.of_not_done _ t hrun id blank]
          exact ha.renewsAt.view_eq hrun id
      | returns outcome =>
          rw [ha.renewsAt.of_done _ t hrun trivial blank]
          rfl

end Regular

/-- Over a sequence of handshakes the fields hold what the last one that returned has negotiated. -/
theorem negotiation_getLast {a : Attempt H M} {attempts : List (Attempt H M)}
    (hchain : List.IsChain Follows (a :: attempts)) (hreg : ∀ b ∈ a :: attempts, b.Regular) :
    ((a :: attempts).getLast (List.cons_ne_nil _ _)).after.negotiation =
      (((a :: attempts).filterMap settled).getLast?).getD a.start.negotiation := by
  induction attempts generalizing a with
  | nil =>
      rw [List.getLast_singleton, (hreg a List.mem_cons_self).negotiation_after]
      cases hsettled : a.settled with
      | none => simp [hsettled]
      | some n => simp [hsettled]
  | cons b attempts ih =>
      obtain ⟨hfollows, hchain⟩ := List.isChain_cons_cons.mp hchain
      have htail := ih hchain fun c hc => hreg c (List.mem_cons_of_mem _ hc)
      rw [List.getLast_cons (List.cons_ne_nil _ _), htail,
        show b.start.negotiation = _ from hfollows, (hreg a List.mem_cons_self).negotiation_after]
      cases hsettled : a.settled with
      | none =>
          rw [List.filterMap_cons_none hsettled]
          rfl
      | some n =>
          rw [List.filterMap_cons_some hsettled, List.getLast?_cons]
          rfl

end Attempt

namespace Scenario

open Attempt

def bobFull : Config PUnit PUnit := { bobXx with ourProfile := .full }

def xxMsg1 : Bytes := lastOf aliceXx false []

def xxMsg2 : Bytes := lastOf bobFull true [.chunk xxMsg1]

def bareMsg2 : Bytes := lastSentXx .msg2 (Steady.after bobXx bobXxStart [.recv xxMsg1])

def earlier : Negotiated where
  fmpVersion := some 9
  peerProfile := some .leaf
  peerWantsSr := true
  peerWantsRr := false

/-- A handshake of `alice` with a given msg2, from a node that has negotiated before. -/
def attempt (msg2 : Bytes) : Attempt PUnit PUnit where
  config := aliceXx
  receptions := [.chunk msg2]
  start := (Handshake.negotiationPart PUnit).put earlier (fresh false)

def closedAfter (a : Attempt PUnit PUnit) : Attempt PUnit PUnit where
  config := aliceXx
  receptions := [.closed]
  start := { a.after with toRecvBuffer := .empty }

theorem follows_closedAfter (a : Attempt PUnit PUnit) : Follows a (closedAfter a) :=
  rfl

/-- A node with another key than `alice`, and its handshake with `bob`. -/
def stranger : Config PUnit PUnit := { aliceXx with nsec := (Additive.keypair 9).secret }

def strangerMsg1 : Bytes := lastOf stranger false []

def strangerMsg3 : Bytes := lastOf stranger false
    [.chunk (lastOf bobFull true [.chunk strangerMsg1])]

def withStranger : Attempt PUnit PUnit where
  config := bobFull
  receptions := [.chunk strangerMsg1, .chunk strangerMsg3]
  start := fresh true

end Scenario

open Attempt in
/-- Over a sequence of XX handshakes of a node whose steps are regular: a handshake that fails
leaves the negotiated fields, and one that returns sets them to what the message that completed it
carries, sealed, whatever they held before.  After the sequence they hold what the last handshake
that returned has negotiated. -/
theorem negotiation_of_attempts {H M : Type} {first : Attempt H M} {attempts : List (Attempt H M)}
    (hchain : List.IsChain Follows (first :: attempts))
    (hregular : ∀ a ∈ first :: attempts, a.Regular) :
    (∀ a ∈ first :: attempts,
      (∀ e t, a.result = .error e t → t.negotiation = a.start.negotiation) ∧
      ∀ outcome rest t, a.result = .ok (.returns outcome, rest) t →
        (∃ frame, t.received.head? = some frame ∧ Handshake.Carries a.config frame t.negotiation) ∧
          ∀ n, a.resultFrom n = .ok (.returns outcome, rest) t) ∧
    ((first :: attempts).getLast (List.cons_ne_nil _ _)).after.negotiation =
      (((first :: attempts).filterMap settled).getLast?).getD first.start.negotiation := by
  constructor
  · intro a ha
    have hreg := hregular a ha
    constructor
    · exact fun e t hrun => hreg.renewsAt.view_eq_of_error hrun
    · intro outcome rest t hrun
      constructor
      · exact Handshake.carries_run hreg.build_eq hreg.step hrun
      · exact hreg.renewsAt.of_done _ t hrun trivial
  · exact negotiation_getLast hchain hregular

open Attempt Scenario in
theorem negotiation_of_attempts_closed :
    (closedAfter (attempt xxMsg2)).after.negotiation =
        ([attempt xxMsg2, closedAfter (attempt xxMsg2)].filterMap settled).getLast?.getD earlier ∧
      ([attempt xxMsg2, closedAfter (attempt xxMsg2)].filterMap settled).getLast? =
        some { fmpVersion := some 1, peerProfile := some .full, peerWantsSr := true,
               peerWantsRr := true } := by
  have hregular : ∀ a ∈ [attempt xxMsg2, closedAfter (attempt xxMsg2)], a.Regular := by
    intro a ha
    have hsteps : ∀ a ∈ [attempt xxMsg2, closedAfter (attempt xxMsg2)],
        a.config.build = .xx ∧ ∀ step ∈ Handshake.steps a.config a.receptions a.start,
          Handshake.Regular a.config step := by
      decide +kernel
    obtain ⟨hbuild, hstep⟩ := hsteps a ha
    refine ⟨hbuild, ?_, hstep⟩
    rcases List.mem_cons.mp ha with rfl | ha
    · exact Additive.suite_checksApart
    · rcases List.mem_cons.mp ha with rfl | ha
      · exact Additive.suite_checksApart
      · cases ha
  have hchain : List.IsChain Follows [attempt xxMsg2, closedAfter (attempt xxMsg2)] :=
    List.isChain_cons_cons.mpr ⟨follows_closedAfter _, .singleton _⟩
  exact ⟨(negotiation_of_attempts hchain hregular).2, by decide +kernel⟩

open Attempt Scenario in
/-- A handshake whose msg2 carries no payload returns with the fields of an earlier session.  The
handshake with a stranger fails, and leaves what the stranger has negotiated. -/
theorem negotiation_of_attempts_bareMsg2 :
    ((attempt bareMsg2).after.negotiation = earlier ∧
      returned (attempt bareMsg2).result ≠ none ∧
      (attempt bareMsg2).settled = some blank) ∧
    (withStranger.result.isOk = false ∧
      withStranger.start.negotiation = blank ∧
      withStranger.after.negotiation =
        { fmpVersion := some 1, peerProfile := some .leaf, peerWantsSr := false,
          peerWantsRr := false }) := by
  decide +kernel

end Node
end Microfips

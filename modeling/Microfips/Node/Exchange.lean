import Microfips.Node.Negotiated
import Microfips.Noise.Messages
import Microfips.Wire.Tlv

/-!
# The handshake between two pinned nodes

What the steps of `handshake_ik` and `handshake_xx` come to where the frames are those of the pinned
peer: msg1 goes out, the peer answers it, and the answer completes the handshake on both sides under
the same keys.  The secrets that are drawn are valid, and the transport takes what is sent.
-/

namespace Microfips
namespace Node
namespace Handshake

open Noise Wire EStateM

variable {H M : Type}

/-- The node holds a static key and is pinned to its peer's, under either parity. -/
structure Pinned (S : Suite) (C : Config H M) (me peer : Keypair S) : Prop where
  suite_eq : C.suite = S
  nsec_eq : C.nsec = me.secret
  isCompressed : IsCompressed C.peerNpub
  sameX : SameX C.peerNpub peer.pub
  /-- The transport takes what is sent. -/
  sendOk : ∀ n, C.world.sendOk n = true
  /-- `generate_valid_eph` ends with a valid secret. -/
  ephemeral : ∀ n, ∃ pub, S.publicKey (C.world.ephemeral n) = some pub

namespace Pinned

variable {S : Suite} {C : Config H M} {me peer : Keypair S}

def held (h : Pinned S C me peer) : HeldKey peer where
  pub := C.peerNpub
  isCompressed := h.isCompressed
  sameX := h.sameX

theorem exists_keypair (h : Pinned S C me peer) (n : ℕ) :
    ∃ e : Keypair S, e.secret = C.world.ephemeral n := by
  obtain ⟨pub, hpub⟩ := h.ephemeral n
  exact ⟨⟨_, pub, hpub⟩, rfl⟩

end Pinned

/-- The handshake waits with an empty buffer; it had sent msg1 itself, and these frames by now. -/
structure Idle (s : Handshake H) (sent : List Bytes) : Prop where
  buffer : s.toRecvBuffer = .empty
  peerSentFirst : s.peerSentFirst = false
  sent_eq : s.sent = sent

/-! ## Handshake frames -/

/-- A frame of the handshake, which is one frame on the wire under either framing. -/
structure Framed (build : Build) (frame : Bytes) (message : FmpMessage) : Prop where
  parse : parseMessage build frame = some message
  extract : extractRawFrame build frame = some (frame, frame.length)
  length : frame.length ≤ 512

section Framed

variable {build : Build} {senderIdx receiverIdx : SessionIndex} {np frame : Bytes} {outLen : ℕ}

theorem length_buildMsg {phase : FmpPhase}
    (h : buildMsg build phase senderIdx receiverIdx np outLen = some frame) :
    frame.length ≤ outLen := by
  rw [buildMsg] at h
  split at h
  · cases h
  · rename_i hroom
    obtain rfl := Option.some.inj h
    simp only [List.length_append, buildPrefix_length, idxBytes_length]
    omega

theorem framed_msg1 (h : buildMsg1 build senderIdx np 256 = some frame)
    (hnp : np.length = handshakeMsg1Size build) : Framed build frame (.msg1 senderIdx np) := by
  refine ⟨parseMessage_buildMsg1 h, extractRawFrame_buildMsg1 h hnp, ?_⟩
  rw [buildMsg1] at h
  split at h
  · cases h
  · rename_i hroom
    obtain rfl := Option.some.inj h
    simp only [List.length_append, buildPrefix_length, idxBytes_length]
    omega

theorem framed_msg2 (h : buildMsg2 build senderIdx receiverIdx np outLen = some frame)
    (hout : outLen ≤ 512) (hnp : handshakeMsg2Size build ≤ np.length) :
    Framed build frame (.msg2 senderIdx receiverIdx np) := by
  have hlen : frame.length ≤ 512 := (length_buildMsg h).trans hout
  exact ⟨parseMessage_buildMsg2 h,
    extractRawFrame_buildMsg (.inl ⟨rfl, rfl⟩) h hnp (hlen.trans (by decide)), hlen⟩

theorem framed_msg3 (h : buildMsg3 build senderIdx receiverIdx np outLen = some frame)
    (hout : outLen ≤ 512) (hnp : handshakeMsg3Size build ≤ np.length) :
    Framed build frame (.msg3 senderIdx receiverIdx np) := by
  have hlen : frame.length ≤ 512 := (length_buildMsg h).trans hout
  exact ⟨parseMessage_buildMsg3 h,
    extractRawFrame_buildMsg (.inr ⟨rfl, rfl⟩) h hnp (hlen.trans (by decide)), hlen⟩

end Framed

section Steps

variable {S : Suite} {C : Config H M} {me peer : Keypair S} {s t : Handshake H} {l : List Bytes}

theorem sendFrame_idle (hC : Pinned S C me peer) (hs : Idle s l) (frame : Bytes) :
    ∃ t, (sendFrame C frame).run s = .ok ⟨⟩ t ∧ Idle t (frame :: l) := by
  have hsend : ∃ n, (sendFrame C frame).run s =
      .ok ⟨⟩ { s with calls := n, sent := frame :: s.sent } := by
    cases hraw : C.rawFraming with
    | true => exact ⟨_, by simp [sendFrame, sendParts, transportSend, ask, hraw, hC.sendOk]; rfl⟩
    | false => exact ⟨_, by simp [sendFrame, sendParts, transportSend, ask, hraw, hC.sendOk]; rfl⟩
  obtain ⟨n, hsend⟩ := hsend
  exact ⟨_, hsend, hs.buffer, hs.peerSentFirst, congrArg (frame :: ·) hs.sent_eq⟩

def Wrote (S : Suite) (C : Config H M) (me : Keypair S) (m₁ : Bytes) (i : LinkInitiator) : Prop :=
  m₁.length = handshakeMsg1Size C.build ∧
    match C.build with
    | .ik => ∃ (e : Keypair S) (i₀ i₁ : NoiseIkInitiator),
        NoiseIkInitiator.new S e.secret me.secret C.peerNpub = .ok (i₀, e.pub) ∧
        (NoiseIkInitiator.writeMessage1 S me.pub C.epoch 256).run i₀ = .ok m₁ i₁ ∧ i = .ik i₁
    | .xx => ∃ (e : Keypair S) (i₀ i₁ : NoiseXxInitiator),
        NoiseXxInitiator.new S e.secret me.secret = .ok (i₀, e.pub) ∧
        (NoiseXxInitiator.writeMessage1 S 256).run i₀ = .ok m₁ i₁ ∧ i = .xx i₁

/-- Msg1 was built for this opening, under an index of ours. -/
structure Opened (S : Suite) (C : Config H M) (me : Keypair S) (o : Opening) : Prop where
  myPub_eq : o.myPub = me.pub
  index : ∃ n, C.world.index n = o.ourIndex
  msg1 : ∃ m₁, Wrote S C me m₁ o.initiator ∧ buildMsg1 C.build o.ourIndex m₁ 256 = some o.msg1

theorem exists_newInitiator_eq (hS : S.Lawful) (hC : Pinned S C me peer) (n : ℕ) :
    ∃ m₁ i, Wrote S C me m₁ i ∧
      (newInitiator C me.pub (C.world.ephemeral n) : HandshakeAction H _) = pure (m₁, i) := by
  obtain ⟨e, he⟩ := hC.exists_keypair n
  rw [newInitiator, hC.suite_eq, hC.nsec_eq, ← he]
  cases hbuild : C.build with
  | ik =>
      obtain ⟨i₀, m₁, i₁, hnew, hwrite, hlen⟩ :=
        exists_ikMsg1 hS hC.held e me C.epoch (show 106 ≤ 256 by decide)
      refine ⟨m₁, .ik i₁, ⟨by rw [hlen, hbuild]; rfl, ?_⟩, ?_⟩
      · rw [hbuild]
        exact ⟨e, i₀, i₁, hnew, hwrite, rfl⟩
      · dsimp only
        rw [show C.peerNpub = hC.held.pub from rfl, hnew, orErr, pure_bind, within_eq hwrite,
          pure_bind]
  | xx =>
      obtain ⟨i₀, i₁, hnew, hwrites⟩ := exists_xxMsg1 e me
      have hwrite := hwrites 256 (by decide)
      refine ⟨e.pub.bytes, .xx i₁, ⟨by rw [Block.length_bytes, hbuild]; rfl, ?_⟩, ?_⟩
      · rw [hbuild]
        exact ⟨e, i₀, i₁, hnew, hwrite, rfl⟩
      · dsimp only
        rw [hnew, orErr, pure_bind, within_eq hwrite, pure_bind]

theorem exists_buildMsg1 {build : Build} {m₁ : Bytes} (h : m₁.length = handshakeMsg1Size build)
    (idx : SessionIndex) : ∃ frame, buildMsg1 build idx m₁ 256 = some frame := by
  rw [buildMsg1, if_neg]
  · exact ⟨_, rfl⟩
  · rw [h]
    cases build <;> decide

theorem onEvent_idle (hs : Idle s l) (event : NodeEvent) :
    ∃ t, (onEvent C event).run s = .ok ⟨⟩ t ∧ Idle t l :=
  ⟨_, rfl, hs.buffer, hs.peerSentFirst, hs.sent_eq⟩

theorem ask_idle (hs : Idle s l) {α : Type} (answer : ℕ → α) :
    ∃ t, (ask answer : HandshakeAction H α).run s = .ok (answer s.calls) t ∧ Idle t l :=
  ⟨_, rfl, hs.buffer, hs.peerSentFirst, hs.sent_eq⟩

theorem begin_opened (hS : S.Lawful) (hC : Pinned S C me peer) (hs : Idle s l) :
    ∃ o t, (begin C).run s = .ok (.opening o) t ∧ o.resendCount = 0 ∧ Opened S C me o ∧
      Idle t (o.msg1 :: l) := by
  have hpub : ecdhPubkey C.suite C.nsec = .ok me.pub := by
    rw [hC.suite_eq, hC.nsec_eq]
    exact ecdhPubkey_eq_ok me.publicKey_secret
  obtain ⟨s₁, hask₁, hs₁⟩ := ask_idle hs C.world.ephemeral
  obtain ⟨m₁, i, hwrote, hnew⟩ := exists_newInitiator_eq hS hC s.calls
  obtain ⟨s₂, hask₂, hs₂⟩ := ask_idle hs₁ C.world.index
  obtain ⟨frame, hframe⟩ := exists_buildMsg1 hwrote.1 (C.world.index s₁.calls)
  obtain ⟨s₃, hsend, hs₃⟩ := sendFrame_idle hC hs₂ frame
  obtain ⟨s₄, hevent, hs₄⟩ := onEvent_idle (C := C) hs₃ .msg1Sent
  refine ⟨⟨i, me.pub, C.world.index s₁.calls, frame, 0⟩, s₄, ?_, rfl,
    ⟨rfl, ⟨_, rfl⟩, m₁, hwrote, hframe⟩, hs₄⟩
  rw [begin, hpub, orErr, pure_bind, run_bind_ok hask₁, hnew, pure_bind, run_bind_ok hask₂, hframe,
    okOr, pure_bind, run_get_bind, if_neg (by rw [hs₂.peerSentFirst]; decide), run_bind_ok hsend,
    run_bind_ok hevent]
  rfl

/-! ## Frames and timeouts that change nothing -/

def addrOf (S : Suite) (k : Keypair S) : Bytes :=
  (Session.nodeAddr S (k.pub.bytes.drop 1)).bytes

theorem bytes_myAddr (hC : Pinned S C me peer) : (myAddr C me.pub).bytes = addrOf S me := by
  rw [myAddr, hC.suite_eq]
  rfl

theorem bytes_peerAddr (hC : Pinned S C me peer) : (peerAddr C).bytes = addrOf S peer := by
  rw [peerAddr, hC.suite_eq, show C.peerNpub.bytes.drop 1 = peer.pub.bytes.drop 1 from hC.sameX]
  rfl

theorem myAddr_ne_peerAddr (hC : Pinned S C me peer) (hne : addrOf S me ≠ addrOf S peer) :
    myAddr C me.pub ≠ peerAddr C := fun h =>
  hne (by rw [← bytes_myAddr hC, ← bytes_peerAddr hC, h])

theorem onFrame_msg1_of_lt (hC : Pinned S C me peer) (hlt : addrOf S me < addrOf S peer)
    (hs : Idle s l) {o : Opening} (ho : Opened S C me o) {frame : Bytes} {idx : SessionIndex}
    {np : Bytes} (hframe : parseMessage C.build frame = some (.msg1 idx np)) :
    (onFrame C (.opening o) frame).run s =
      .ok (.waits (.opening { o with resendCount := 0 })) s := by
  have hne : myAddr C me.pub ≠ peerAddr C := myAddr_ne_peerAddr hC fun h =>
    List.lt_irrefl _ (h ▸ hlt)
  have hcond : s.peerSentFirst = false ∧ (myAddr C me.pub).bytes < (peerAddr C).bytes := by
    rw [bytes_myAddr hC, bytes_peerAddr hC]
    exact ⟨hs.peerSentFirst, hlt⟩
  rw [onFrame, onFrameOpening, hframe]
  dsimp only
  rw [onMsg1, ho.myPub_eq, run_get_bind, if_neg hne, if_pos hcond]
  rfl

theorem onFrame_answering_msg1 (a : Answering) {frame : Bytes} {idx : SessionIndex} {np : Bytes}
    (hframe : parseMessage C.build frame = some (.msg1 idx np)) :
    (onFrame C (.answering a) frame).run s = .ok (.waits (.answering a)) s := by
  rw [onFrame, onFrameAnswering, hframe]
  rfl

theorem onTimeout_opening (hC : Pinned S C me peer) (hs : Idle s l) {o : Opening}
    (hresends : o.resendCount + 1 ≤ C.timing.handshakeMaxResends) :
    ∃ t, (onTimeout C (.opening o)).run s =
        .ok (.opening { o with resendCount := o.resendCount + 1 }) t ∧ Idle t (o.msg1 :: l) := by
  obtain ⟨t, hsend, ht⟩ := sendFrame_idle hC hs o.msg1
  refine ⟨t, ?_, ht⟩
  rw [onTimeout, onTimeoutOpening, bind_assoc, run_get_bind, if_neg (Nat.not_lt.mpr hresends),
    if_neg (by rw [hs.peerSentFirst]; decide), bind_assoc, run_bind_ok hsend]
  rfl

theorem onTimeout_answering (hC : Pinned S C me peer) (hs : Idle s l) {a : Answering}
    (hresends : a.resendCount + 1 ≤ C.timing.handshakeMaxResends) :
    ∃ t, (onTimeout C (.answering a)).run s =
        .ok (.answering { a with resendCount := a.resendCount + 1 }) t ∧ Idle t (a.msg2 :: l) := by
  obtain ⟨t, hsend, ht⟩ := sendFrame_idle hC hs a.msg2
  refine ⟨t, ?_, ht⟩
  rw [onTimeout, onTimeoutAnswering, if_neg (Nat.not_lt.mpr hresends), bind_assoc,
    run_bind_ok hsend]
  rfl

end Steps

/-! ## The exchange -/

section Exchange

variable {H' M' : Type} {S : Suite} {C : Config H M} {D : Config H' M'} {me peer : Keypair S}
  {s : Handshake H'} {l : List Bytes}

/-- The msg2 completes the opening with the outcome, and the frames go out before. -/
def Completes (C : Config H M) (o : Opening) (msg2 : Bytes) (outcome : Outcome)
    (frames : List Bytes) : Prop :=
  ∀ (n : ℕ) (s : Handshake H) (l : List Bytes), Idle s l →
    ∃ t, (onFrame C (.opening { o with resendCount := n }) msg2).run s = .ok (.returns outcome) t ∧
      Idle t (frames ++ l)

/-- The msg2 answers the opening: it completes the handshake of the initiator, whose last frames
these are, with the outcome that agrees with that of the responder. -/
structure Reply (C : Config H M) (D : Config H' M') (o : Opening) (msg2 : Bytes) (c d : Outcome)
    (last : List Bytes) : Prop where
  completes : Completes C o msg2 c last
  ks_eq : c.ks = d.kr
  kr_eq : c.kr = d.ks
  second_them : d.them = o.ourIndex
  first_them : ∃ n, D.world.index n = c.them
  msg2 : ∃ m₂, Framed D.build msg2 (.msg2 c.them o.ourIndex m₂)
  last : ∀ frame ∈ last, ∃ m₃, Framed C.build frame (.msg3 o.ourIndex c.them m₃)

variable {o : Opening} {neg : Bytes}

theorem onFrame_msg1_of_gt (hD : Pinned S D peer me) (hgt : addrOf S me < addrOf S peer)
    (ho : Opened S D peer o) {frame : Bytes} {idx : SessionIndex} {np : Bytes}
    (hframe : parseMessage D.build frame = some (.msg1 idx np)) :
    (onFrame D (.opening o) frame).run s = (answer D idx np).run s := by
  have hne : myAddr D peer.pub ≠ peerAddr D := myAddr_ne_peerAddr hD fun h =>
    List.lt_irrefl _ (h ▸ hgt)
  have hcond : ¬ (s.peerSentFirst = false ∧ (myAddr D peer.pub).bytes < (peerAddr D).bytes) := by
    rw [bytes_myAddr hD, bytes_peerAddr hD]
    exact fun h => List.lt_asymm hgt h.2
  rw [onFrame, onFrameOpening, hframe]
  dsimp only
  rw [onMsg1, ho.myPub_eq, run_get_bind, if_neg hne, if_neg hcond]

/-- In the IK build the peer answers msg1 and returns, and its msg2 completes our handshake. -/
theorem answer_ik (hS : S.Lawful) (hik : C.build = .ik) (hbuild : D.build = C.build)
    (hC : Pinned S C me peer) (hD : Pinned S D peer me) {np : Bytes}
    (hnp : Wrote S C me np o.initiator) (hs : Idle s l) :
    ∃ c d msg2 t, (answer D o.ourIndex np).run s = .ok (.returns d) t ∧ Idle t (msg2 :: l) ∧
      Reply C D o msg2 c d [] := by
  obtain ⟨hlen, hnp⟩ := hnp
  rw [hik] at hlen hnp
  obtain ⟨e, i₀, i₁, hnew, hwrite, hinit⟩ := hnp
  obtain ⟨er, her⟩ := hD.exists_keypair s.calls
  obtain ⟨r₀, r₁, m₂, r₂, i₂, hr₀, hr₁, hr₂, hlen₂, hi₂, hkeys⟩ :=
    exists_ikMsg2 hS hC.held er D.epoch (show 106 ≤ 256 by decide) (show 57 ≤ 128 by decide) hnew
      hwrite
  obtain ⟨s₁, hask₁, hs₁⟩ := ask_idle hs D.world.ephemeral
  obtain ⟨s₂, hask₂, hs₂⟩ := ask_idle hs₁ D.world.index
  obtain ⟨msg2, hmsg2⟩ : ∃ msg2,
      buildMsg2 D.build (D.world.index s₁.calls) o.ourIndex m₂ 256 = some msg2 := by
    rw [buildMsg2, buildMsg, if_neg (by rw [hlen₂]; decide)]
    exact ⟨_, rfl⟩
  obtain ⟨s₃, hsend, hs₃⟩ := sendFrame_idle hD hs₂ msg2
  have hsame : SameX me.pub D.peerNpub := hD.sameX.symm
  refine ⟨⟨(i₂.finalize S).1, (i₂.finalize S).2, D.world.index s₁.calls⟩,
    ⟨(r₂.finalize S).2, (r₂.finalize S).1, o.ourIndex⟩, msg2, s₃, ?_, hs₃,
    { completes := ?_
      ks_eq := by rw [hkeys]
      kr_eq := by rw [hkeys]
      second_them := rfl
      first_them := ⟨_, rfl⟩
      msg2 := ⟨m₂, framed_msg2 hmsg2 (by decide) (by rw [hlen₂, hbuild, hik]; decide)⟩
      last := by rintro frame ⟨⟩ }⟩
  · rw [answer, hbuild, hik]
    dsimp only
    rw [answerIk, if_neg (by rw [hlen]; decide), hD.suite_eq, hD.nsec_eq, hr₀, orErr, pure_bind,
      within_eq hr₁, pure_bind, if_pos hsame, bind_assoc, run_bind_ok hask₁, ← her,
      within_eq hr₂, pure_bind, bind_assoc, run_bind_ok hask₂, hmsg2, okOr, pure_bind, bind_assoc,
      run_bind_ok hsend]
    rfl
  · intro n u l' hu
    refine ⟨u, ?_, hu⟩
    rw [onFrame, onFrameOpening, ← hbuild, parseMessage_buildMsg2 hmsg2]
    dsimp only
    rw [complete, hinit]
    dsimp only
    rw [completeIk, hC.suite_eq, within_eq hi₂, pure_bind]
    rfl

/-! ### The negotiation of the XX build -/

theorem parse_encodeNegotiation (h : encodeNegotiation D = some neg) :
    NegotiationHeader.parse neg = .ok (ourNegotiation D) := by
  rw [encodeNegotiation, ← encodePayloadWith_none] at h
  exact parse_encodePayloadWith (UInt8.le_refl _) (by cases D.build <;> decide) h

theorem fromFeatures_fmpFeatures (profile : NodeProfile) :
    NodeProfile.fromFeatures (fmpFeatures profile) = some profile := by
  cases profile <;> decide

theorem nodeProfile_ourNegotiation (D : Config H' M') :
    (ourNegotiation D).nodeProfile = some D.ourProfile :=
  fromFeatures_fmpFeatures D.ourProfile

theorem exists_agreed (hbuild : D.build = C.build)
    (hvalid : NodeProfile.validPairing C.ourProfile D.ourProfile = true)
    (h : encodeNegotiation D = some neg) : ∃ n, agreed C neg = some n := by
  have hversion : (ourNegotiation C).agreeVersion (ourNegotiation D) =
      .ok (Wire.fmpVersion C.build) := by
    simp only [ourNegotiation, NegotiationHeader.agreeVersion, hbuild]
    cases C.build <;> rfl
  rw [agreed, parse_encodeNegotiation h]
  dsimp only
  rw [hversion, nodeProfile_ourNegotiation]
  dsimp only
  rw [if_pos hvalid]
  exact ⟨_, rfl⟩

theorem readNegotiation_idle {σ : Type} (e : ProtocolError)
    (decrypt : Bytes → EStateM (Fault NoiseError) σ Bytes) {encrypted : Bytes} {object object' : σ}
    {n : Negotiated} {u : Handshake H} {l' : List Bytes} (hu : Idle u l')
    (hdecrypt : (decrypt encrypted).run object = .ok neg object')
    (hagreed : agreed C neg = some n) :
    ∃ t, (readNegotiation C e decrypt (some encrypted) object).run u = .ok object' t ∧
      Idle t l' := by
  refine ⟨(negotiationPart H).put n u, ?_, hu.buffer, hu.peerSentFirst, hu.sent_eq⟩
  rw [readNegotiation, within_eq hdecrypt, pure_bind, applyFmpNegotiation_eq, hagreed]
  rfl

def Accepts (D : Config H M) (a : Answering) (msg3 : Bytes) (outcome : Outcome) : Prop :=
  ∀ (n : ℕ) (s : Handshake H) (l : List Bytes), Idle s l →
    ∃ t, (onFrame D (.answering { a with resendCount := n }) msg3).run s =
        .ok (.returns outcome) t ∧ Idle t l

/-- In the XX build the peer answers msg1 and waits, its msg2 completes our handshake, and our msg3
that of the peer. -/
theorem answer_xx (hS : S.Lawful) (hxx : C.build = .xx) (hbuild : D.build = C.build)
    (hC : Pinned S C me peer) (hD : Pinned S D peer me)
    (hvalid : NodeProfile.validPairing C.ourProfile D.ourProfile = true) (ho : Opened S C me o)
    {np : Bytes} (hnp : Wrote S C me np o.initiator) (hs : Idle s l) :
    ∃ c d a msg3 t, (answer D o.ourIndex np).run s = .ok (.waits (.answering a)) t ∧
      a.resendCount = 0 ∧ Idle t (a.msg2 :: l) ∧ Reply C D o a.msg2 c d [msg3] ∧
      Accepts D a msg3 d := by
  obtain ⟨-, hnp⟩ := hnp
  rw [hxx] at hnp
  obtain ⟨e, i₀, i₁, hnew, hwrite, hinit⟩ := hnp
  obtain ⟨er, her⟩ := hD.exists_keypair s.calls
  obtain ⟨neg₂, hneg₂, hneglen₂⟩ := exists_encodeNegotiation D
  obtain ⟨neg₃, hneg₃, hneglen₃⟩ := exists_encodeNegotiation C
  obtain ⟨n₂, hagreed₂⟩ := exists_agreed hbuild hvalid hneg₂
  obtain ⟨n₃, hagreed₃⟩ := exists_agreed hbuild.symm
    (by rw [NodeProfile.validPairing, Bool.or_comm]; exact hvalid) hneg₃
  obtain ⟨r₀, r₁, m₂, r₂, c₂, r₃, hr₀, hr₁, hr₂, hlen₂, hr₃, hc₂, i₂, i₃, m₃, i₄, c₃, i₅, hi₂, hi₃,
      -, hi₄, hlen₃, hi₅, hc₃, r₄, r₅, hr₄, hr₅, hkeys⟩ :=
    exists_xxMsg2 hS er peer C.epoch D.epoch (show 33 ≤ 256 by decide) hnew hwrite
      (show 106 ≤ withNegotiation xxHandshakeMsg2Size by decide)
      (show 73 ≤ withNegotiation xxHandshakeMsg3Size by decide)
      (show neg₂.length + 16 ≤ withNegotiation xxHandshakeMsg2Size - 106 by
        rw [hneglen₂]; decide)
      (show neg₃.length + 16 ≤ withNegotiation xxHandshakeMsg3Size - 73 by
        rw [hneglen₃]; decide)
      (show neg₂.length ≤ negotiationMaxSize by rw [hneglen₂]; decide)
      (show neg₃.length ≤ negotiationMaxSize by rw [hneglen₃]; decide)
  obtain ⟨s₁, hask₁, hs₁⟩ := ask_idle hs D.world.ephemeral
  obtain ⟨s₂, hask₂, hs₂⟩ := ask_idle hs₁ D.world.index
  have hlen₂' : (m₂ ++ c₂).length = 132 := by rw [List.length_append, hlen₂, hc₂, hneglen₂]
  have hlen₃' : (m₃ ++ c₃).length = 99 := by rw [List.length_append, hlen₃, hc₃, hneglen₃]
  obtain ⟨msg2, hmsg2⟩ : ∃ msg2,
      buildMsg2 D.build (D.world.index s₁.calls) o.ourIndex (m₂ ++ c₂) 512 = some msg2 := by
    rw [buildMsg2, buildMsg, if_neg (by rw [hlen₂']; decide)]
    exact ⟨_, rfl⟩
  obtain ⟨msg3, hmsg3⟩ : ∃ msg3,
      buildMsg3 C.build o.ourIndex (D.world.index s₁.calls) (m₃ ++ c₃) 512 = some msg3 := by
    rw [buildMsg3, buildMsg, if_neg (by rw [hlen₃']; decide)]
    exact ⟨_, rfl⟩
  obtain ⟨s₃, hsend, hs₃⟩ := sendFrame_idle hD hs₂ msg2
  have hframed₂ := framed_msg2 hmsg2 (by decide) (by rw [hlen₂', hbuild, hxx]; decide)
  have hframed₃ := framed_msg3 hmsg3 (by decide) (by rw [hlen₃', hxx]; decide)
  refine ⟨⟨(i₅.finalize S).1, (i₅.finalize S).2, D.world.index s₁.calls⟩,
    ⟨(r₅.finalize S).2, (r₅.finalize S).1, o.ourIndex⟩, ⟨r₃, o.ourIndex, msg2, 0⟩, msg3, s₃, ?_,
    rfl,
    hs₃,
    { completes := ?_
      ks_eq := by rw [hkeys]
      kr_eq := by rw [hkeys]
      second_them := rfl
      first_them := ⟨_, rfl⟩
      msg2 := ⟨_, hframed₂⟩
      last := by
        intro frame hframe
        obtain rfl := List.mem_singleton.mp hframe
        exact ⟨_, hframed₃⟩ }, ?_⟩
  · rw [answer, hbuild, hxx]
    dsimp only
    have hwrite₂ : (writeMsg2 D r₁ er.secret : HandshakeAction H' _) = pure (m₂ ++ c₂, r₃) := by
      rw [writeMsg2, hD.suite_eq, within_eq hr₂, pure_bind, hneg₂, okOr, pure_bind, hlen₂,
        within_eq hr₃, pure_bind]
    rw [answerXx, hD.suite_eq, hD.nsec_eq, hr₀, orErr, pure_bind, within_eq hr₁, pure_bind,
      bind_assoc, run_bind_ok hask₁, ← her, hwrite₂, pure_bind, bind_assoc, run_bind_ok hask₂,
      hmsg2,
      okOr, pure_bind, bind_assoc, run_bind_ok hsend]
    rfl
  · intro n u l' hu
    have hsame : SameX peer.pub C.peerNpub := hC.sameX.symm
    have hsplit : splitMsg2Noise (m₂ ++ c₂) = (m₂, some c₂) :=
      splitHandshakeNoise_append hlen₂ (by omega)
    obtain ⟨u₁, hread, hu₁⟩ := readNegotiation_idle .decryptFailed
      (NoiseXxInitiator.decryptPayload S · negotiationMaxSize) hu hi₃ hagreed₂
    obtain ⟨u₂, hsend₃, hu₂⟩ := sendFrame_idle hC hu₁ msg3
    refine ⟨u₂, ?_, hu₂⟩
    rw [onFrame, onFrameOpening, ← hbuild, hframed₂.parse]
    dsimp only
    rw [complete, hinit]
    dsimp only
    rw [completeXx, hsplit, hC.suite_eq, within_eq hi₂, pure_bind, if_pos hsame, bind_assoc,
      run_bind_ok hread, sendMsg3, hC.suite_eq, ho.myPub_eq, within_eq hi₄, pure_bind, hneg₃, okOr,
      pure_bind, hlen₃, within_eq hi₅, pure_bind, hmsg3, okOr, pure_bind, bind_assoc, bind_assoc,
      run_bind_ok hsend₃]
    rfl
  · intro n u l' hu
    have hsame : SameX me.pub D.peerNpub := hD.sameX.symm
    have hsplit : splitMsg3Noise (m₃ ++ c₃) = (m₃, some c₃) :=
      splitHandshakeNoise_append hlen₃ (by omega)
    obtain ⟨u₁, hread, hu₁⟩ := readNegotiation_idle .invalidMessage
      (NoiseXxResponder.decryptPayload S · negotiationMaxSize) hu hr₅ hagreed₃
    refine ⟨u₁, ?_, hu₁⟩
    rw [onFrame, onFrameAnswering, hbuild, hframed₃.parse]
    dsimp only
    rw [acceptMsg3, hsplit, hD.suite_eq, within_eq hr₄, pure_bind, bind_assoc, run_bind_ok hread,
      if_pos hsame]
    rfl

end Exchange

/-! ## A frame arrives -/

section Arrival

variable {C : Config H M} {s : Handshake H} {l : List Bytes}

def onWire (rawFraming : Bool) (frame : Bytes) : Bytes :=
  if rawFraming then frame else encodeFrame frame

variable {message : FmpMessage}

theorem Framed.pos {build : Build} {frame : Bytes} (h : Framed build frame message) :
    1 ≤ frame.length := by
  by_contra hlen
  have hextract := h.extract
  rw [extractRawFrame, if_pos (by simp only [commonPrefixSize]; omega)] at hextract
  cases hextract

theorem next_onWire {build : Build} {frame : Bytes} (h : Framed build frame message)
    (rawFraming : Bool) :
    (RecvBuffer.empty.store rawFraming (onWire rawFraming frame)).next build rawFraming =
      (some frame, .empty) := by
  have hlen := h.length
  have htake : frame.take maxFrameSize = frame :=
    List.take_of_length_le (hlen.trans (by decide))
  cases rawFraming with
  | true =>
      simp [RecvBuffer.next, RecvBuffer.store, onWire, RecvBuffer.nextRaw, RecvBuffer.pending,
        h.extract, htake, RecvBuffer.advance]
  | false =>
      have hsize : (encodeFrame frame).length = 2 + frame.length := by simp [encodeFrame]
      have hne : frame ≠ [] := by
        rintro rfl
        exact absurd h.pos (by decide)
      have hnext := next_encodeFrame_append ⟨h.pos, hlen.trans (by decide)⟩ []
      rw [lengthPrefixed_next, List.append_nil] at hnext
      obtain ⟨fuel, hfuel⟩ : ∃ fuel, (encodeFrame frame).length = fuel + 1 := ⟨_, by
        rw [hsize, Nat.add_comm]⟩
      have hstore : RecvBuffer.empty.store false (onWire false frame) = ⟨encodeFrame frame, 0⟩ := by
        rw [onWire, if_neg Bool.false_ne_true, RecvBuffer.store, if_neg Bool.false_ne_true, if_neg]
        · rfl
        · rw [hsize, RecvBuffer.empty, List.length_nil, maxFrameSize]
          omega
      rw [hstore]
      simp [RecvBuffer.next, hfuel, RecvBuffer.nextLengthPrefixed, RecvBuffer.pending, hnext, hne,
        htake, RecvBuffer.advance]
      omega

theorem next_empty (build : Build) (rawFraming : Bool) :
    RecvBuffer.empty.next build rawFraming = (none, .empty) := by
  cases rawFraming with
  | true => simp [RecvBuffer.next, RecvBuffer.nextRaw, RecvBuffer.pending, RecvBuffer.empty,
      extractRawFrame, commonPrefixSize, RecvBuffer.compact]
  | false => rfl

theorem drain_idle (fuel : ℕ) (phase : Phase) (hs : Idle s l) :
    ∃ t, (drain C fuel phase).run s = .ok (.waits phase) t ∧ Idle t l := by
  cases fuel with
  | zero => exact ⟨s, rfl, hs⟩
  | succ fuel =>
      have hrecv : (recvFrame C).run s = .ok none { s with toRecvBuffer := .empty } := by
        simp [recvFrame, hs.buffer, next_empty]
        rfl
      refine ⟨{ s with toRecvBuffer := .empty }, ?_, rfl, hs.peerSentFirst, hs.sent_eq⟩
      rw [drain, run_bind_ok hrecv]
      rfl

/-- A frame that arrives while the handshake waits is taken up at once, in a state that has not come
further. -/
theorem exists_receive {phase : Phase} {frame : Bytes} (hframe : Framed C.build frame message)
    (hs : Idle s l) :
    ∃ s', Idle s' l ∧ ∀ q u l', (onFrame C phase frame).run s' = .ok q u → Idle u l' →
      ∃ t, (receive C phase (.chunk (onWire C.rawFraming frame))).run s = .ok q t ∧ Idle t l' := by
  have hlen : ¬ Steady.recvBufSize < (onWire C.rawFraming frame).length := by
    have := hframe.length
    rw [onWire, Steady.recvBufSize]
    split
    · omega
    · rw [encodeFrame, List.length_append, Bytes.ofNat_length]
      omega
  have hnext := next_onWire hframe C.rawFraming
  obtain ⟨b, hb⟩ : ∃ b, RecvBuffer.empty.store C.rawFraming (onWire C.rawFraming frame) = b :=
    ⟨_, rfl⟩
  rw [hb] at hnext
  have hpos : ¬ b.rbuf.length < b.rpos := by
    rw [← hb, RecvBuffer.store, RecvBuffer.empty]
    split_ifs <;> exact Nat.not_lt_zero _
  have hrecv : (recvFrame C).run { s with toRecvBuffer := b } =
      .ok (some frame) { s with toRecvBuffer := .empty, received := frame :: s.received } := by
    simp [recvFrame, hpos, hnext]
  refine ⟨{ s with toRecvBuffer := .empty, received := frame :: s.received },
    ⟨rfl, hs.peerSentFirst, hs.sent_eq⟩, fun q u l' hu hul => ?_⟩
  rw [receive, run_get_bind, if_neg hlen, hs.buffer, hb]
  dsimp only
  rw [run_set_bind, drain, run_bind_ok hrecv]
  dsimp only
  rw [run_bind_ok hu]
  cases q with
  | waits phase' => exact drain_idle _ phase' hul
  | returns outcome => exact ⟨u, rfl, hul⟩

end Arrival

end Handshake
end Node
end Microfips

import Microfips.Session.Opening

/-!
# Establishing a session over a lossy link

A dual handler and a responder on a link that loses datagrams.  A round is one tick of the dual
handler with the datagrams that follow from it.  A lost setup and a lost ack are made good by the
next tick, which repeats the setup and draws the same ack again; a lost msg3 is not, since the
initiator counts its session as established when it has sent it.  So the two sides agree after one
round without loss, if no msg3 was lost before.
-/

namespace Microfips
namespace Session

open Noise Wire Node EStateM

structure Link (A B : Type) where
  initiator : FspDualHandler A
  responder : FspDualHandler B

/-- One round: its time, and which of its datagrams are lost. -/
structure Round where
  now : ℕ
  setupLost : Bool
  ackLost : Bool
  msg3Lost : Bool
  deriving DecidableEq

def Round.Lossless (round : Round) : Prop :=
  round.setupLost = false ∧ round.ackLost = false ∧ round.msg3Lost = false

instance (round : Round) : Decidable round.Lossless :=
  inferInstanceAs (Decidable (_ ∧ _))

namespace Link

open FspDualHandler

variable {A B : Type}

abbrev Action (A B α : Type) : Type :=
  EStateM (Fault Empty) (Link A B) α

def atInitiator {α : Type} (m : FspDualHandler.Action A α) : Action A B α :=
  EStateM.zoom Link.initiator (fun h link => { link with initiator := h }) m

def atResponder {α : Type} (m : FspDualHandler.Action B α) : Action A B α :=
  EStateM.zoom Link.responder (fun h link => { link with responder := h }) m

/-- Hand a datagram to the other end, if there is one and it is not lost. -/
def carry (lost : Bool) (result : HandleResult) (m : Bytes → Action A B HandleResult) :
    Action A B HandleResult :=
  match result, lost with
  | .sendDatagram data, false => m data
  | _, _ => return .none

structure Apps (A B : Type) where
  initiator : FspAppHandler A
  responder : FspAppHandler B
  appBuf : ℕ

def round (S : Suite) (build : Build) (apps : Apps A B) (r : Round) : Action A B PUnit := do
  let result ← atInitiator (onTick S r.now 320)
  let result ← carry r.setupLost result fun data =>
    atResponder (onMessage S build apps.responder apps.appBuf r.now msgSessionDatagram data 320)
  let result ← carry r.ackLost result fun data =>
    atInitiator (onMessage S build apps.initiator apps.appBuf r.now msgSessionDatagram data 320)
  let _ ← carry r.msg3Lost result fun data =>
    atResponder (onMessage S build apps.responder apps.appBuf r.now msgSessionDatagram data 320)
  return ⟨⟩

def rounds (S : Suite) (build : Build) (apps : Apps A B) : List Round → Action A B PUnit
  | [] => return ⟨⟩
  | r :: rs => do
      round S build apps r
      rounds S build apps rs

theorem atInitiator_run {α : Type} {m : FspDualHandler.Action A α} {link : Link A B} {a : α}
    {h : FspDualHandler A} (hrun : m.run link.initiator = .ok a h) :
    (atInitiator m : Action A B α).run link = .ok a { link with initiator := h } := by
  rw [atInitiator, EStateM.zoom_run, hrun]

theorem atResponder_run {α : Type} {m : FspDualHandler.Action B α} {link : Link A B} {a : α}
    {h : FspDualHandler B} (hrun : m.run link.responder = .ok a h) :
    (atResponder m : Action A B α).run link = .ok a { link with responder := h } := by
  rw [atResponder, EStateM.zoom_run, hrun]

@[simp]
theorem carry_lost (result : HandleResult) (m : Bytes → Action A B HandleResult) :
    carry true result m = pure .none := by
  cases result <;> rfl

@[simp]
theorem carry_none (lost : Bool) (m : Bytes → Action A B HandleResult) :
    carry lost .none m = pure .none := by
  cases lost <;> rfl

@[simp]
theorem carry_disconnect (lost : Bool) (m : Bytes → Action A B HandleResult) :
    carry lost .disconnect m = pure .none := by
  cases lost <;> rfl

@[simp]
theorem carry_sendDatagram (data : Bytes) (m : Bytes → Action A B HandleResult) :
    carry false (.sendDatagram data) m = m data :=
  rfl

theorem carry_run {lost : Bool} {result : HandleResult} {m : Bytes → Action A B HandleResult}
    {link : Link A B} {P : HandleResult → Link A B → Prop} (hnone : P .none link)
    (hsend : ∀ data, result = .sendDatagram data →
      ∃ r link', (m data).run link = .ok r link' ∧ P r link') :
    ∃ r link', (carry lost result m).run link = .ok r link' ∧ P r link' := by
  cases result with
  | none => exact ⟨.none, link, by simp, hnone⟩
  | disconnect => exact ⟨.none, link, by simp, hnone⟩
  | sendDatagram data =>
      cases lost with
      | true => exact ⟨.none, link, by simp, hnone⟩
      | false => exact hsend data rfl

end Link

theorem hasPhase_of_parseSessionAck {data handshake : Bytes}
    (h : parseSessionAck data = .ok handshake) : HasPhase .sessionAck data := by
  rw [parseSessionAck] at h
  obtain ⟨body, hbody, hphase, -⟩ | ⟨e, hbody⟩ := (safe_parseSessionBody .sessionAck data).cases
  · exact hphase
  · rw [hbody] at h
    cases h

theorem buildFspDataMessage_ok {S : Suite} {counter : UInt64} {timestampMs : UInt32}
    {payload packet : Bytes} {key : Block 32} {outLen : ℕ}
    (h : buildFspDataMessage S counter timestampMs payload key outLen = .ok packet) :
    HasPhase .established packet ∧ packet.length = 34 + payload.length := by
  rw [buildFspDataMessage, fspPrependInnerHeader] at h
  split at h
  · cases h
  · rename_i inner hinner
    split at hinner
    · cases hinner
    · obtain rfl := Option.some.inj hinner
      dsimp only at h
      split at h
      · cases h
      · rename_i ciphertext hseal
        have hlen := aeadEncrypt_length hseal
        rw [buildFspEncrypted] at h
        split at h
        · cases h
        · rename_i hpacket
          split at hpacket
          · cases hpacket
          · obtain rfl := Option.some.inj hpacket
            obtain rfl := Except.ok.inj h
            refine ⟨hasPhase_buildFspHeader _ _ _ _, ?_⟩
            simp [buildFspHeader] at hlen ⊢
            omega

namespace FspDualHandler

variable {A : Type} {S : Suite} {build : Build} {h : FspDualHandler A}

variable {data : Bytes}

theorem handleResponder_ack (handler : FspAppHandler A) (appBuf : ℕ) (src dst : Block 16)
    (hphase : HasPhase .sessionAck data) (respLen : ℕ) :
    handleResponder S build handler appBuf msgSessionDatagram
      (buildSessionDatagramBody src dst ++ data) respLen = pure .none := by
  cases data with
  | nil => exact absurd hphase (by decide)
  | cons first rest =>
      have hfirst : first &&& 0x0F = Phase.sessionAck.toUInt8 := hphase
      rw [handleResponder_datagram, hfirst]
      rfl

theorem handleResponder_nil (handler : FspAppHandler A) (appBuf : ℕ) (src dst : Block 16)
    (respLen : ℕ) :
    handleResponder S build handler appBuf msgSessionDatagram
      (buildSessionDatagramBody src dst ++ []) respLen = pure .none := by
  have hlen : ¬ (msgSessionDatagram ≠ msgSessionDatagram ∨
      (buildSessionDatagramBody src dst ++ []).length < sessionDatagramBodySize) := by
    simp [buildSessionDatagramBody, sessionDatagramBodySize]
  rw [handleResponder, if_neg hlen]
  simp only [drop_buildSessionDatagramBody]

theorem handleResponder_data (handler : FspAppHandler A) (appBuf : ℕ) (src dst : Block 16)
    (hne : data ≠ []) (hphase : HasPhase .established data) (respLen : ℕ) :
    handleResponder S build handler appBuf msgSessionDatagram
      (buildSessionDatagramBody src dst ++ data) respLen =
        handleResponderData S handler appBuf src (buildSessionDatagramBody dst src) data
          respLen := by
  cases data with
  | nil => exact absurd rfl hne
  | cons first rest =>
      have hfirst : first &&& 0x0F = Phase.established.toUInt8 := hphase
      rw [handleResponder_datagram, hfirst]
      rfl

theorem handleInitiatorData_run (fsp : FspInitiatorSession) (fspData : Bytes) :
    ∃ r, (handleInitiatorData S fsp fspData).run h = .ok r h ∧ (r = .none ∨ r = .disconnect) := by
  rw [handleInitiatorData]
  split
  · split
    · exact ⟨.none, rfl, .inl rfl⟩
    · split
      · exact ⟨.none, rfl, .inl rfl⟩
      · split
        · exact ⟨.none, rfl, .inl rfl⟩
        · simp only [EStateM.run_bind, EStateM.run_get]
          split
          · exact ⟨.disconnect, rfl, .inr rfl⟩
          · exact ⟨.none, rfl, .inl rfl⟩
  · exact ⟨.none, rfl, .inl rfl⟩

section Exchange

variable {si ei sr er : Keypair S} {rs : HeldKey sr} {epochI epochR : Block 8}
  (x : Exchange S build si ei sr er rs epochI epochR) {target : Block 16}

/-- The handler has sent its setup and waits for the ack. -/
structure Sent (target : Block 16) (h : FspDualHandler A) : Prop where
  nsec : h.nsec = si.secret
  targetAddr : h.targetAddr = some target
  initiator : h.initiator = some (initiatorSession si rs .awaitingAck x.opened none)
  lastSetup : h.lastSetup = some (setupDatagram si ei target)

/-- The handler has sent its msg3, and perhaps some data messages. -/
structure Finished (target : Block 16) (h : FspDualHandler A) : Prop where
  nsec : h.nsec = si.secret
  targetAddr : h.targetAddr = some target
  initiator : ∃ counter, h.initiator = some { initiatorSession si rs .established x.done
    (some (x.done.finalize S)) with sendCounter := counter }

variable {x}

variable {respLen : ℕ}

theorem Sent.onTick_run (hsent : Sent x target h) (now : ℕ) (hresp : 111 ≤ respLen) :
    (onTick S now respLen).run h = .ok (.sendDatagram (setupDatagram si ei target))
      { h with fspTimer := some (now + fromSecs 8) } := by
  have hrespond : (respond respLen (setupDatagram si ei target) : Action A _).run h =
      .ok (.sendDatagram (setupDatagram si ei target)) h := by
    rw [respond, if_neg (by rw [setupDatagram_length]; omega)]
    rfl
  have hstate : (initiatorSession si rs .awaitingAck x.opened none).state = .awaitingAck := rfl
  conv_lhs =>
    simp only [onTick, EStateM.run_bind, EStateM.run_get, hsent.targetAddr, myAddr_eq hsent.nsec,
      hsent.initiator, hsent.lastSetup, hstate, hrespond]
  rfl

theorem handleInitiatorAck_run (hepoch : h.fspEpoch = epochI) (now : ℕ)
    (myAddr target setupSrc : Block 16) (hresp : 141 ≤ respLen) :
    (handleInitiatorAck S now myAddr target (initiatorSession si rs .awaitingAck x.opened none)
      (x.ack setupSrc) respLen).run h =
        .ok (.sendDatagram (buildSessionDatagramBody myAddr target ++ x.msg3Packet))
          { h with
            initiator := some (initiatorSession si rs .established x.done
              (some (x.done.finalize S)))
            fspTimer := some (now + fromSecs 2) } := by
  have hack : (onInitiator (initiatorSession si rs .awaitingAck x.opened none)
      (FspInitiatorSession.handleAck S (x.ack setupSrc))).run h =
        .ok (.ok ⟨⟩) { h with initiator := some (initiatorSession si rs .awaitingEstablished
          x.answered none) } := by
    rw [EStateM.run, onInitiator, x.handleAck_run]
  have hbuild {t : FspDualHandler A} :
      (onInitiator (initiatorSession si rs .awaitingEstablished x.answered none)
        (FspInitiatorSession.buildMsg3 S epochI 512)).run t =
          .ok (.ok x.msg3Packet) { t with initiator := some (initiatorSession si rs .established
            x.done (some (x.done.finalize S))) } := by
    rw [EStateM.run, onInitiator, x.buildMsg3_run (by decide)]
  have hrespond {t : FspDualHandler A} :
      (respond respLen (buildSessionDatagramBody myAddr target ++ x.msg3Packet) :
        Action A _).run t =
          .ok (.sendDatagram (buildSessionDatagramBody myAddr target ++ x.msg3Packet)) t := by
    have hlen := x.msg3_length
    have hsize : (buildSessionDatagramBody myAddr target ++ x.msg3Packet).length ≤ 141 := by
      simp [buildSessionDatagramBody, Exchange.msg3Packet, fspPrefix_length]
      omega
    rw [respond, if_neg (by omega)]
    rfl
  simp only [handleInitiatorAck, EStateM.run_bind, EStateM.run_get, hack, hepoch, hbuild, hrespond]
  rfl

theorem Sent.onMessage_ack (hsent : Sent x target h) (hepoch : h.fspEpoch = epochI)
    (handler : FspAppHandler A) (appBuf now : ℕ) (src dst setupSrc : Block 16)
    (hresp : 141 ≤ respLen) :
    (onMessage S build handler appBuf now msgSessionDatagram
      (buildSessionDatagramBody src dst ++ x.ack setupSrc) respLen).run h =
        .ok (.sendDatagram (buildSessionDatagramBody (nodeAddr S (xOnly si.pub)) target ++
          x.msg3Packet))
          { h with
            initiator := some (initiatorSession si rs .established x.done
              (some (x.done.finalize S)))
            fspTimer := some (now + fromSecs 2) } := by
  have hphase := hasPhase_of_parseSessionAck (x.parse_ack setupSrc)
  have hrun := handleInitiatorAck_run (x := x) hepoch now (nodeAddr S (xOnly si.pub)) target
    setupSrc hresp
  have hstate : (initiatorSession si rs .awaitingAck x.opened none).state = .awaitingAck := rfl
  rw [onMessage, handleResponder_ack _ _ _ _ hphase]
  cases hack : x.ack setupSrc with
  | nil =>
      rw [hack] at hphase
      exact absurd hphase (by decide)
  | cons first rest =>
      rw [hack] at hrun hphase
      have hfirst : first &&& 0x0F = Phase.sessionAck.toUInt8 := hphase
      have hlen : ¬ (buildSessionDatagramBody src dst ++ first :: rest).length <
          sessionDatagramBodySize := by
        simp [buildSessionDatagramBody, sessionDatagramBodySize]
        omega
      simp only [EStateM.run_bind, EStateM.run_pure, handleInitiator, EStateM.run_get, ne_eq,
        not_true_eq_false, if_false, hsent.targetAddr, myAddr_eq hsent.nsec, hsent.initiator, hlen,
        drop_buildSessionDatagramBody, hstate, hfirst, if_true, hrun]

theorem Finished.onTick_run (hdone : Finished x target h) (now : ℕ) (hresp : 73 ≤ respLen) :
    ∃ r t, (onTick S now respLen).run h = .ok r t ∧ Finished x target t ∧
      t.fspSession = h.fspSession ∧
      Answers (buildSessionDatagramBody (nodeAddr S (xOnly si.pub)) target) r := by
  obtain ⟨counter, hinit⟩ := hdone.initiator
  have hnone : Answers (buildSessionDatagramBody (nodeAddr S (xOnly si.pub)) target) .none := by
    intro data hdata
    cases hdata
  simp only [onTick, EStateM.run_bind, EStateM.run_get, hdone.targetAddr, myAddr_eq hdone.nsec,
    hinit, initiatorSession, sendPing, FspInitiatorSession.sessionKeys, Option.map_some,
    EStateM.run_modify]
  split
  · exact ⟨_, _, rfl, ⟨hdone.nsec, rfl, counter + 1, rfl⟩, rfl, hnone⟩
  · rename_i packet hpacket
    obtain ⟨hphase, hlen⟩ := buildFspDataMessage_ok hpacket
    have hsize : ¬ respLen <
        (buildSessionDatagramBody (nodeAddr S (xOnly si.pub)) target ++ packet).length := by
      have hping : "PING".toUTF8.toList.length = 4 := by decide +kernel
      rw [List.length_append, hlen, hping]
      simp [buildSessionDatagramBody]
      omega
    rw [respond, if_neg hsize]
    refine ⟨_, _, rfl, ⟨hdone.nsec, rfl, counter + 1, rfl⟩, rfl, ?_⟩
    intro data hdata
    exact ⟨packet, hphase, (HandleResult.sendDatagram.inj hdata).symm⟩

/-- An established session leaves the handler as it is when a data message comes. -/
theorem Finished.onMessage_data (hdone : Finished x target h)
    (hsession : h.fspSession.state ≠ .established) (handler : FspAppHandler A) (appBuf now : ℕ)
    (src dst : Block 16) {data : Bytes} (hphase : HasPhase .established data) (respLen : ℕ) :
    ∃ r, (onMessage S build handler appBuf now msgSessionDatagram
      (buildSessionDatagramBody src dst ++ data) respLen).run h = .ok r h ∧
        (r = .none ∨ r = .disconnect) := by
  have hresponder : (handleResponder S build handler appBuf msgSessionDatagram
      (buildSessionDatagramBody src dst ++ data) respLen).run h = .ok .none h := by
    cases data with
    | nil => rw [handleResponder_nil]; rfl
    | cons first rest =>
        rw [handleResponder_data _ _ _ _ (by simp) hphase]
        simp [handleResponderData, hsession]
  obtain ⟨counter, hinit⟩ := hdone.initiator
  rw [onMessage, run_bind_ok hresponder]
  simp only [handleInitiator, EStateM.run_bind, EStateM.run_get, ne_eq, not_true_eq_false, if_false,
    hdone.targetAddr, myAddr_eq hdone.nsec, hinit, drop_buildSessionDatagramBody]
  split
  · exact ⟨.none, rfl, .inl rfl⟩
  · cases data with
    | nil => exact ⟨.none, rfl, .inl rfl⟩
    | cons first rest =>
        have hfirst : first &&& 0x0F = Phase.established.toUInt8 := hphase
        obtain ⟨r, hrun, hr⟩ := handleInitiatorData_run (S := S) (h := h)
          { initiatorSession si rs .established x.done (some (x.done.finalize S)) with
            sendCounter := counter } (first :: rest)
        refine ⟨r, ?_, hr⟩
        simpa only [initiatorSession, hfirst, if_true] using hrun

end Exchange

theorem onMessage_data (hidle : h.Idle) {handler : FspAppHandler A} (hfits : handler.Fits)
    (appBuf now : ℕ) (src dst : Block 16) (hphase : HasPhase .established data) (respLen : ℕ) :
    ∃ r t, (onMessage S build handler appBuf now msgSessionDatagram
      (buildSessionDatagramBody src dst ++ data) respLen).run h = .ok r t ∧
        t.settled = h.settled ∧ Answers (buildSessionDatagramBody dst src) r := by
  obtain ⟨r, t, hrun, ht, hr⟩ : ∃ r t, (handleResponder S build handler appBuf msgSessionDatagram
      (buildSessionDatagramBody src dst ++ data) respLen).run h = .ok r t ∧
        t.settled = h.settled ∧ Answers (buildSessionDatagramBody dst src) r := by
    cases data with
    | nil =>
        rw [handleResponder_nil]
        exact ⟨_, _, rfl, rfl, by rintro _ ⟨⟩⟩
    | cons first rest =>
        rw [handleResponder_data _ _ _ _ (by simp) hphase]
        obtain ⟨r, t, hrun, hr⟩ | ⟨e, -⟩ :=
          (meets_handleResponderData (S := S) (h := h) hfits appBuf
          src (buildSessionDatagramBody dst src) (first :: rest) respLen).cases
        · exact ⟨r, t, hrun,
            (leavesSettled_handleResponderData handler appBuf _ _ _ _).view_eq hrun, hr⟩
        · cases e
  have hidle' : t.Idle := by
    have hinit : t.initiator = h.initiator := congrArg (fun v => v.1.initiator) ht
    exact fun fsp hfsp => hidle fsp (hinit ▸ hfsp)
  rw [onMessage, run_bind_ok hrun]
  cases r with
  | none => exact ⟨.none, t, handleInitiator_idle hidle' _ _ _ _, ht, hr⟩
  | sendDatagram data => exact ⟨_, t, rfl, ht, hr⟩
  | disconnect => exact ⟨_, t, rfl, ht, hr⟩

end FspDualHandler

namespace Link

open FspDualHandler

variable {A B : Type} {S : Suite} {build : Build} {si ei sr er : Keypair S} {rs : HeldKey sr}
  {epochI epochR : Block 8} (x : Exchange S build si ei sr er rs epochI epochR) {target : Block 16}

/-- The session is being opened: the initiator has sent its setup or will at the next tick. -/
structure Pending (target : Block 16) (link : Link A B) : Prop where
  outgoing : Prepared x target link.initiator ∨ Sent x target link.initiator
  fspEpoch : link.initiator.fspEpoch = epochI
  idle : link.initiator.fspSession.state ≠ .established
  serves : x.Serves link.responder
  responds : link.responder.initiator = none

structure Agreed (target : Block 16) (link : Link A B) : Prop where
  finished : Finished x target link.initiator
  idle : link.initiator.fspSession.state ≠ .established
  established : x.Established link.responder.fspSession
  responds : link.responder.initiator = none

variable {x} {link : Link A B} {apps : Apps A B}

theorem Pending.onTick_run (hpending : Pending x target link) (now : ℕ) :
    ∃ h, (onTick S now 320).run link.initiator =
        .ok (.sendDatagram (setupDatagram si ei target)) h ∧
      Sent x target h ∧ h.fspEpoch = epochI ∧ h.fspSession.state ≠ .established := by
  rcases hpending.outgoing with hprep | hsent
  · refine ⟨_, onTick_prepared hprep now (by decide), ⟨hprep.nsec, hprep.targetAddr, rfl, rfl⟩,
      hpending.fspEpoch, hpending.idle⟩
  · refine ⟨_, hsent.onTick_run now (by decide),
      ⟨hsent.nsec, hsent.targetAddr, hsent.initiator, hsent.lastSetup⟩, hpending.fspEpoch,
      hpending.idle⟩

theorem Pending.round_run (hpending : Pending x target link) {r : Round}
    (hmsg3 : r.msg3Lost = false) :
    ∃ link', (round S build apps r).run link = .ok ⟨⟩ link' ∧
      (Agreed x target link' ∨ Pending x target link' ∧ ¬ r.Lossless) := by
  obtain ⟨h, htick, hsent, hepoch, hidle⟩ := hpending.onTick_run r.now
  have hopens : x.Opens (setupOf (nodeAddr S (xOnly si.pub)) target ei.pub)
      (nodeAddr S (xOnly si.pub)) :=
    x.opens_of_build (buildSessionSetup_eq_ok (nodeAddr S (xOnly si.pub)) target ei.pub)
  obtain ⟨s, hs, hsetup⟩ := x.onMessage_setup apps.responder apps.appBuf r.now hpending.serves
    (nodeAddr S (xOnly si.pub)) target hopens (show 210 ≤ 320 by decide)
  have hack := hsent.onMessage_ack hepoch apps.initiator apps.appBuf r.now target
    (nodeAddr S (xOnly si.pub)) (nodeAddr S (xOnly si.pub)) (show 141 ≤ 320 by decide)
  obtain ⟨res, t, hmsg, ht⟩ := x.onMessage_msg3 apps.responder apps.appBuf r.now
    (h := { link.responder with fspSession := s }) hs (nodeAddr S (xOnly si.pub)) target
    (show 210 ≤ 320 by decide)
  have hresponds : t.initiator = none := by
    have hidle : Idle { link.responder with fspSession := s } := by
      intro fsp hfsp
      cases hpending.responds.symm.trans hfsp
    exact (congrArg Outgoing.initiator ((leavesOutgoing_onMessage hidle _ _ _ _ _ _).view_eq
      hmsg)).trans hpending.responds
  rw [round, run_bind_ok (atInitiator_run htick)]
  cases hlost : r.setupLost with
  | true =>
      refine ⟨{ link with initiator := h }, ?_, .inr ⟨⟨.inr hsent, hepoch, hidle, hpending.serves,
        hpending.responds⟩, fun hl => ?_⟩⟩
      · simp
      · cases hlost.symm.trans hl.1
  | false =>
      have hcarried : (atResponder (onMessage S build apps.responder apps.appBuf r.now
          msgSessionDatagram (setupDatagram si ei target) 320) : Action A B _).run
            { link with initiator := h } = .ok _ ⟨h, { link.responder with fspSession := s }⟩ :=
        atResponder_run hsetup
      rw [carry_sendDatagram, run_bind_ok hcarried]
      cases hlost : r.ackLost with
      | true =>
          refine ⟨⟨h, { link.responder with fspSession := s }⟩, ?_, .inr ⟨⟨.inr hsent, hepoch,
            hidle, hpending.serves.withSession x s, hpending.responds⟩, fun hl => ?_⟩⟩
          · simp
          · cases hlost.symm.trans hl.2.1
      | false =>
          rw [carry_sendDatagram, run_bind_ok (atInitiator_run hack), hmsg3, carry_sendDatagram,
            run_bind_ok (atResponder_run hmsg)]
          exact ⟨_, rfl, .inl ⟨⟨hsent.nsec, hsent.targetAddr, 0, rfl⟩, hidle, ht, hresponds⟩⟩

theorem Agreed.round_run (hagreed : Agreed x target link) (hfits : apps.responder.Fits)
    (r : Round) :
    ∃ link', (round S build apps r).run link = .ok ⟨⟩ link' ∧ Agreed x target link' := by
  obtain ⟨res, h, htick, hdone, hsession, hres⟩ := hagreed.finished.onTick_run r.now
    (show 73 ≤ 320 by decide)
  have hidle : h.fspSession.state ≠ .established := hsession ▸ hagreed.idle
  have hdata {replyBody : Bytes} : Answers replyBody .none := by
    intro data hdata
    cases hdata
  -- the data message reaches the responder, and its answer the initiator
  obtain ⟨res₂, link₂, hping, ⟨hinit₂, hsettled⟩, hres₂⟩ : ∃ res₂ link₂,
      (carry r.setupLost res fun data => atResponder (onMessage S build apps.responder apps.appBuf
        r.now msgSessionDatagram data 320)).run { link with initiator := h } = .ok res₂ link₂ ∧
      (link₂.initiator = h ∧ link₂.responder.settled = link.responder.settled) ∧
      Answers (buildSessionDatagramBody target (nodeAddr S (xOnly si.pub))) res₂ := by
    apply carry_run
    · exact ⟨⟨rfl, rfl⟩, hdata⟩
    · intro data hsend
      obtain ⟨message, hphase, rfl⟩ := hres data hsend
      have hresponder : link.responder.Idle := by
        intro fsp hfsp
        cases hagreed.responds.symm.trans hfsp
      obtain ⟨res₂, t, hrun, ht, hres₂⟩ := onMessage_data (S := S) hresponder hfits apps.appBuf
        r.now (nodeAddr S (xOnly si.pub)) target hphase 320
      exact ⟨_, _, atResponder_run hrun, ⟨rfl, ht⟩, hres₂⟩
  obtain ⟨res₃, link₃, hpong, rfl, hres₃⟩ : ∃ res₃ link₃,
      (carry r.ackLost res₂ fun data => atInitiator (onMessage S build apps.initiator apps.appBuf
        r.now msgSessionDatagram data 320)).run link₂ = .ok res₃ link₃ ∧
      link₃ = link₂ ∧ (res₃ = .none ∨ res₃ = .disconnect) := by
    apply carry_run
    · exact ⟨rfl, .inl rfl⟩
    · intro data hsend
      obtain ⟨message, hphase, rfl⟩ := hres₂ data hsend
      rw [← hinit₂] at hdone hidle
      obtain ⟨res₃, hrun, hres₃⟩ := hdone.onMessage_data hidle apps.initiator apps.appBuf r.now
        target (nodeAddr S (xOnly si.pub)) hphase 320
      exact ⟨res₃, _, atInitiator_run hrun, rfl, hres₃⟩
  refine ⟨link₃, ?_, ?_⟩
  · rw [round, run_bind_ok (atInitiator_run htick), run_bind_ok hping, run_bind_ok hpong]
    rcases hres₃ with rfl | rfl
    · simp
    · simp
  · have hkeys : { link₃.responder.fspSession with sendCounter := 0 } =
        { link.responder.fspSession with sendCounter := 0 } := congrArg Prod.snd hsettled
    obtain ⟨hstate, hrecv, hsend⟩ := hagreed.established
    refine ⟨hinit₂ ▸ hdone, hinit₂ ▸ hidle, ⟨?_, ?_, ?_⟩, ?_⟩
    · exact (congrArg FspSession.state hkeys).trans hstate
    · exact (congrArg FspSession.kRecv hkeys).trans hrecv
    · exact (congrArg FspSession.kSend hkeys).trans hsend
    · exact (congrArg (fun v => v.1.initiator) hsettled).trans hagreed.responds

theorem Agreed.rounds_run (hagreed : Agreed x target link) (hfits : apps.responder.Fits)
    (rounds : List Round) :
    ∃ link', (Link.rounds S build apps rounds).run link = .ok ⟨⟩ link' ∧
      Agreed x target link' := by
  induction rounds generalizing link with
  | nil => exact ⟨link, rfl, hagreed⟩
  | cons r rounds ih =>
      obtain ⟨link₁, hround, hagreed₁⟩ := hagreed.round_run hfits r
      obtain ⟨link₂, hrounds, hagreed₂⟩ := ih hagreed₁
      refine ⟨link₂, ?_, hagreed₂⟩
      rw [Link.rounds, run_bind_ok hround, hrounds]

/-- Rounds in which no msg3 is lost establish the session, if one of them loses nothing. -/
theorem Pending.rounds_run (hpending : Pending x target link) (hfits : apps.responder.Fits)
    {rounds : List Round} (hmsg3 : ∀ r ∈ rounds, r.msg3Lost = false) :
    ∃ link', (Link.rounds S build apps rounds).run link = .ok ⟨⟩ link' ∧
      (Agreed x target link' ∨ Pending x target link' ∧ ∀ r ∈ rounds, ¬ r.Lossless) := by
  induction rounds generalizing link with
  | nil => exact ⟨link, rfl, .inr ⟨hpending, by simp⟩⟩
  | cons r rounds ih =>
      obtain ⟨link₁, hround, hlink₁⟩ : ∃ link₁, (round S build apps r).run link = .ok ⟨⟩ link₁ ∧
          (Agreed x target link₁ ∨ Pending x target link₁ ∧ ¬ r.Lossless) :=
        hpending.round_run (hmsg3 r List.mem_cons_self)
      rcases hlink₁ with hagreed | ⟨hpending₁, hloss⟩
      · obtain ⟨link₂, hrounds, hagreed₂⟩ := hagreed.rounds_run hfits rounds
        refine ⟨link₂, ?_, .inl hagreed₂⟩
        rw [Link.rounds, run_bind_ok hround, hrounds]
      · obtain ⟨link₂, hrounds, hlink₂⟩ := ih hpending₁
          fun r hr => hmsg3 r (List.mem_cons_of_mem _ hr)
        refine ⟨link₂, ?_, hlink₂.imp id fun h => ⟨h.1, ?_⟩⟩
        · rw [Link.rounds, run_bind_ok hround, hrounds]
        · rw [List.forall_mem_cons]
          exact ⟨hloss, h.2⟩

/-- A dual handler with the static key `si` and a responder with the static key `sr`, both told at
the time `now` that the link is up. -/
def up (S : Suite) (build : Build) (si ei sr er : Keypair S) (rs : HeldKey sr)
    (responderEphemeral : Block 32) (target : Block 16) (epochI epochR : Block 8) (appI : A)
    (appR : B) (now : ℕ) : Link A B where
  initiator := ((onEventDefault now .handshakeOk).run
    (newDual S build si.secret responderEphemeral ei.secret rs.pub target epochI appI)).state
  responder := ((onEventDefault now .handshakeOk).run
    (newResponder sr.secret er.secret epochR appR)).state

end Link

open Link in
/-- Whatever setups and acks were lost before, the first round without loss establishes the session
on both sides with the same keys, and they stay so, if no msg3 was lost. -/
theorem established_after_loss {A B : Type} {S : Suite} (hS : S.Lawful) (build : Build)
    (si ei sr er : Keypair S) (rs : HeldKey sr) (responderEphemeral : Block 32)
    (target : Block 16) (epochI epochR : Block 8) (appI : A) (appR : B) (now : ℕ)
    {apps : Apps A B} (hfits : apps.responder.Fits) {losses further : List Round}
    (hmsg3 : ∀ r ∈ losses, r.msg3Lost = false) (hfurther : further ≠ [])
    (hlossless : ∀ r ∈ further, r.Lossless) :
    ∃ link fsp kSend kRecv,
      (rounds S build apps (losses ++ further)).run (up S build si ei sr er rs responderEphemeral
        target epochI epochR appI appR now) = .ok ⟨⟩ link ∧
      link.initiator.initiator = some fsp ∧ fsp.state = .established ∧
      link.responder.fspSession.state = .established ∧
      fsp.kSend = some kSend ∧ link.responder.fspSession.kRecv = some kSend ∧
      fsp.kRecv = some kRecv ∧ link.responder.fspSession.kSend = some kRecv := by
  obtain ⟨x⟩ := nonempty_exchange si ei sr er rs epochI epochR hS build
  have hstart : Pending x target (up S build si ei sr er rs responderEphemeral target epochI epochR
      appI appR now) := by
    refine ⟨.inl ⟨rfl, rfl, ?_⟩, rfl, by rintro ⟨⟩, ⟨rfl, rfl, rfl⟩, rfl⟩
    have hnew : (FspInitiatorSession.new S build si.secret ei.secret rs.pub).toOption =
        some (initiatorSession si rs .idle x.fresh none) := by
      rw [x.new_initiator]
      rfl
    exact hnew
  have hall : ∀ r ∈ losses ++ further, r.msg3Lost = false := by
    intro r hr
    rcases List.mem_append.mp hr with hr | hr
    · exact hmsg3 r hr
    · exact (hlossless r hr).2.2
  obtain ⟨link, hrun, hagreed | ⟨-, hloss⟩⟩ := hstart.rounds_run hfits hall
  · obtain ⟨counter, hinit⟩ := hagreed.finished.initiator
    exact ⟨link, _, _, _, hrun, hinit, rfl, hagreed.established.1, rfl, hagreed.established.2.1,
      rfl, hagreed.established.2.2⟩
  · obtain ⟨r, hr⟩ := List.exists_mem_of_ne_nil further hfurther
    exact absurd (hlossless r hr) (hloss r (List.mem_append_right _ hr))

namespace Link
namespace Scenario

def apps : Apps PUnit PUnit where
  initiator := FspDualHandler.Scenario.silent
  responder := FspDualHandler.Scenario.silent
  appBuf := 512

def after (build : Build) (losses : List Round) : Link PUnit PUnit :=
  ((rounds Additive.suite build apps losses).run
    (up Additive.suite build (Additive.keypair 1) (Additive.keypair 2) (Additive.keypair 3)
      (Additive.keypair 4) (Additive.oddKey 3) (Additive.keypair 5).secret (Block.replicate 16 7)
      (Block.replicate 8 5) (Block.replicate 8 6) ⟨⟩ ⟨⟩ 0)).state

def lossless (now : ℕ) : Round where
  now := now
  setupLost := false
  ackLost := false
  msg3Lost := false

end Scenario
end Link

open Link Link.Scenario in
/-- A setup is lost, then an ack, then nothing. -/
theorem established_after_loss_setup_ack :
    ∃ link fsp kSend,
      after .xx ([⟨5, true, false, false⟩, ⟨13, false, true, false⟩] ++ [lossless 21]) = link ∧
      link.initiator.initiator = some fsp ∧ fsp.kSend = some kSend ∧
      link.responder.fspSession.kRecv = some kSend := by
  have hfits : apps.responder.Fits := by
    intro app msgType payload room peer kind reply hreply
    cases hreply
  obtain ⟨link, fsp, kSend, kRecv, hrun, hfsp, -, -, hsend, hrecv, -⟩ :=
    established_after_loss Additive.suite_lawful .xx (Additive.keypair 1) (Additive.keypair 2)
      (Additive.keypair 3) (Additive.keypair 4) (Additive.oddKey 3) (Additive.keypair 5).secret
      (Block.replicate 16 7) (Block.replicate 8 5) (Block.replicate 8 6) PUnit.unit PUnit.unit 0
      hfits (show ∀ r ∈ [⟨5, true, false, false⟩, ⟨13, false, true, false⟩],
        Round.msg3Lost r = false by decide) (show [lossless 21] ≠ [] by simp) (by decide)
  refine ⟨link, fsp, kSend, ?_, hfsp, hsend, hrecv⟩
  rw [after, hrun]
  rfl

open Link Link.Scenario in
/-- The msg3 of the first round is lost.  After three rounds without loss the initiator is
established and the responder still waits for the msg3. -/
theorem waiting_after_lost_msg3 :
    (after .ik [⟨5, false, false, true⟩, lossless 7, lossless 17,
      lossless 27]).initiator.initiator.map FspInitiatorSession.state = some .established ∧
    (after .ik [⟨5, false, false, true⟩, lossless 7, lossless 17,
      lossless 27]).responder.fspSession.state = .awaitingMsg3 := by
  decide +kernel

end Session
end Microfips

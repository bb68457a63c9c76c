import Microfips.Noise.Messages
import Microfips.Session.Datagram
import Microfips.Session.Roundtrip

/-!
# Agreement of sessions

An initiator and a responder of the session layer that exchange the datagrams of one session
through the wire codecs.  The responder answers every copy of the setup from the same ephemeral key
and epoch, so all its acks are the same, and the initiator that reads any of them ends with the keys
of the responder that reads its msg3.
-/

namespace Microfips
namespace Session

open Noise Wire Node EStateM SymmetricState

theorem hasPhase_fspPrefix (phase : Phase) (flags : UInt8) (n : ℕ) (body : Bytes) :
    HasPhase phase (fspPrefix phase flags n ++ body) := by
  have hfirst : (fspPrefix phase flags n ++ body).getD 0 0 = phase.toUInt8 &&& 0x0F := rfl
  rw [HasPhase, hfirst]
  cases phase <;> decide

theorem drop_buildSessionDatagramBody (src dst : Block 16) (data : Bytes) :
    (buildSessionDatagramBody src dst ++ data).drop sessionDatagramBodySize = data :=
  List.drop_left' (by simp [buildSessionDatagramBody, sessionDatagramBodySize])

namespace FspDualHandler

variable {A : Type} {S : Suite} {build : Build} (handler : FspAppHandler A) (appBuf : ℕ)
  (src dst : Block 16) {data : Bytes}

theorem handleResponder_datagram (first : UInt8) (rest : Bytes) (respLen : ℕ) :
    handleResponder S build handler appBuf msgSessionDatagram
      (buildSessionDatagramBody src dst ++ first :: rest) respLen =
        if first &&& 0x0F = Phase.sessionSetup.toUInt8 then
          handleResponderSetup S build (buildSessionDatagramBody dst src) (first :: rest) respLen
        else if first &&& 0x0F = Phase.sessionMsg3.toUInt8 then
          handleResponderMsg3 S build (first :: rest)
        else if first &&& 0x0F = Phase.established.toUInt8 then
          handleResponderData S handler appBuf src (buildSessionDatagramBody dst src)
            (first :: rest) respLen
        else
          return .none := by
  have hlen : ¬ (msgSessionDatagram ≠ msgSessionDatagram ∨
      (buildSessionDatagramBody src dst ++ first :: rest).length < sessionDatagramBodySize) := by
    simp [buildSessionDatagramBody, sessionDatagramBodySize]
    omega
  have hsrc : Block.ofBytes 16
      (Bytes.slice 3 19 (buildSessionDatagramBody src dst ++ first :: rest)) = src := by
    simp [Bytes.slice, buildSessionDatagramBody]
  have hdst : Block.ofBytes 16
      (Bytes.slice 19 35 (buildSessionDatagramBody src dst ++ first :: rest)) = dst := by
    simp [Bytes.slice, buildSessionDatagramBody]
  rw [handleResponder, if_neg hlen]
  simp only [hsrc, hdst, drop_buildSessionDatagramBody]

theorem handleResponder_setup (hphase : HasPhase .sessionSetup data) (respLen : ℕ) :
    handleResponder S build handler appBuf msgSessionDatagram
      (buildSessionDatagramBody src dst ++ data) respLen =
        handleResponderSetup S build (buildSessionDatagramBody dst src) data respLen := by
  cases data with
  | nil => exact absurd hphase (by decide)
  | cons first rest =>
      rw [handleResponder_datagram]
      exact if_pos hphase

theorem handleResponder_msg3 (hphase : HasPhase .sessionMsg3 data) (respLen : ℕ) :
    handleResponder S build handler appBuf msgSessionDatagram
      (buildSessionDatagramBody src dst ++ data) respLen = handleResponderMsg3 S build data := by
  cases data with
  | nil => exact absurd hphase (by decide)
  | cons first rest =>
      have hne : ¬ first &&& 0x0F = Phase.sessionSetup.toUInt8 := by
        rw [show first &&& 0x0F = Phase.sessionMsg3.toUInt8 from hphase]
        decide
      rw [handleResponder_datagram, if_neg hne]
      exact if_pos hphase

end FspDualHandler

/-- An undisturbed exchange between an initiator with the static key `si`, the ephemeral key `ei`
and the epoch `epochI`, and a responder with `sr`, `er` and `epochR`, whose key the initiator holds
as `rs`: the states of both handshakes and the messages between them. -/
structure Exchange (S : Suite) (build : Build) (si ei sr er : Keypair S) (rs : HeldKey sr)
    (epochI epochR : Block 8) where
  fresh : SessionInitiator
  opened : SessionInitiator
  answered : SessionInitiator
  done : SessionInitiator
  waiting : SessionResponder
  finished : SessionResponder
  ack : Block 16 → Bytes
  msg2 : Bytes
  msg3 : Bytes
  new_eq : SessionInitiator.new S build ei.secret si.secret rs.pub = .ok fresh
  writeMsg1_run : ∀ {n}, 33 ≤ n →
    (SessionInitiator.writeMsg1 S n).run fresh = .ok ei.pub.bytes opened
  answerSetup_eq : ∀ setupSrc {n}, 175 ≤ n →
    FspSession.answerSetup S build sr.secret er.secret epochR setupSrc ei.pub.bytes n =
      .ok (ack setupSrc, waiting)
  parse_ack : ∀ setupSrc, parseSessionAck (ack setupSrc) = .ok msg2
  readMsg2_run : (SessionInitiator.readMsg2 S rs.pub msg2).run opened = .ok ⟨⟩ answered
  writeMsg3_run : (SessionInitiator.writeMsg3 S si.pub epochI).run answered = .ok msg3 done
  msg3_length : msg3.length ≤ 99
  msg3LengthOk : FspSession.msg3LengthOk build msg3 = true
  readMsg3_run : (SessionResponder.readMsg3 S msg3).run waiting = .ok si.pub finished
  keys : done.finalize S = finished.finalize S

def ackOf (src dst : Block 16) (msg2 : Bytes) : Bytes :=
  fspPrefix .sessionAck 0x00 (handshakeBody 0x00 [src] [dst] msg2).length ++
    handshakeBody 0x00 [src] [dst] msg2

theorem buildSessionAck_eq_ok (src dst : Block 16) {msg2 : Bytes} {n : ℕ} (hlen : msg2.length ≤ 132)
    (hroom : 175 ≤ n) : buildSessionAck [src] [dst] msg2 n = .ok (ackOf src dst msg2) := by
  have hbody := @handshakeBody_length 0x00 [src] [dst] msg2
  simp only [List.length_singleton] at hbody
  exact buildSessionHandshake_eq_ok (by simp) (by simp) (by omega) (by omega)

def setupOf (src dst : Block 16) (ePub : Block 33) : Bytes :=
  fspPrefix .sessionSetup 0x00 (handshakeBody 0x00 [src] [dst] ePub.bytes).length ++
    handshakeBody 0x00 [src] [dst] ePub.bytes

theorem setupOf_length (src dst : Block 16) (ePub : Block 33) :
    (setupOf src dst ePub).length = 76 := by
  rw [setupOf, List.length_append, fspPrefix_length, handshakeBody_length]
  simp

theorem buildSessionSetup_eq_ok (src dst : Block 16) (ePub : Block 33) :
    buildSessionSetup 0x00 [src] [dst] ePub.bytes 512 = .ok (setupOf src dst ePub) := by
  have hbody := @handshakeBody_length 0x00 [src] [dst] ePub.bytes
  simp only [List.length_singleton, Block.length_bytes] at hbody
  exact buildSessionHandshake_eq_ok (by simp) (by simp) (by omega) (by omega)

section Exchange

variable {S : Suite} (si ei sr er : Keypair S) (rs : HeldKey sr) (epochI epochR : Block 8)

def xkInitiator (sym : SymmetricState) (rePub : Option (Block 33)) : NoiseXkInitiator where
  sym := sym
  ePriv := ei.secret
  ePub := ei.pub
  sPriv := si.secret
  rsPub := rs.pub
  rePub := rePub

def xkResponder (sym : SymmetricState) (ePriv : Option (Block 32)) : NoiseXkResponder where
  sym := sym
  eiPub := ei.pub
  ePriv := ePriv

theorem nonempty_exchange_ik (hS : S.Lawful) :
    Nonempty (Exchange S .ik si ei sr er rs epochI epochR) := by
  obtain ⟨es, hes, hes'⟩ := rs.ecdh_comm hS ei
  obtain ⟨ee, hee, hee'⟩ := ei.ecdh_comm hS er
  obtain ⟨se, hse, hse'⟩ := si.ecdh_comm hS er
  have hei := ecdhPubkey_eq_ok ei.publicKey_secret
  have hsr := ecdhPubkey_eq_ok sr.publicKey_secret
  have hnorm := parityNormalize_eq_of_sameX rs.sameX
  obtain ⟨s₀, hs₀⟩ : ∃ s, mixHash S (parityNormalize sr.pub).bytes (init S protocolNameXk) = s :=
    ⟨_, rfl⟩
  obtain ⟨s₁, hs₁⟩ : ∃ s, mixKey S es (mixHash S ei.pub.bytes s₀) = s := ⟨_, rfl⟩
  obtain ⟨s₂, hs₂⟩ : ∃ s, mixKey S ee (mixHash S er.pub.bytes s₁) = s := ⟨_, rfl⟩
  obtain ⟨t₂, ht₂⟩ : ∃ t, afterSealed S epochR.bytes s₂ = t := ⟨_, rfl⟩
  obtain ⟨t₃, ht₃⟩ : ∃ t, afterStaticEpoch S se si.pub epochI t₂ = t := ⟨_, rfl⟩
  obtain ⟨msg2, hmsg2⟩ : ∃ m, er.pub.bytes ++ sealed S epochR.bytes s₂ = m := ⟨_, rfl⟩
  obtain ⟨msg3, hmsg3⟩ : ∃ m, staticEpoch S se si.pub epochI t₂ = m := ⟨_, rfl⟩
  have hk₂ : s₂.k.isSome = true := by simp [← hs₂]
  have hk : t₂.k.isSome = true := by simp [← ht₂, hk₂]
  have hlen2 : msg2.length = 57 := by simp [← hmsg2, sealed_length hk₂]
  have hlen3 : msg3.length = 73 := by rw [← hmsg3, staticEpoch_length _ _ _ hk]
  have hnew : NoiseXkInitiator.new S ei.secret si.secret rs.pub =
      .ok (xkInitiator si ei sr rs s₀ none, ei.pub) := by
    simp [NoiseXkInitiator.new, hei, hnorm, hs₀, xkInitiator]
  have hwrite1 {n : ℕ} (hn : 33 ≤ n) : (NoiseXkInitiator.writeMessage1 S n).run
      (xkInitiator si ei sr rs s₀ none) = .ok ei.pub.bytes (xkInitiator si ei sr rs s₁ none) := by
    rw [← hs₁]
    exact NoiseXkInitiator.writeMessage1_run hes hn
  have hanswer : NoiseXkResponder.new S sr.secret ei.pub = .ok (xkResponder ei s₁ none) := by
    simp [NoiseXkResponder.new, hsr, hes', hs₀, hs₁, xkResponder]
  have hwrite2 : (NoiseXkResponder.writeMessage2 S er.secret epochR 128).run
      (xkResponder ei s₁ none) = .ok msg2 (xkResponder ei t₂ (some er.secret)) := by
    rw [← hmsg2, ← ht₂, ← hs₂]
    exact NoiseXkResponder.writeMessage2_run er.publicKey_secret hee' epochR (by decide)
  have hread2 : (NoiseXkInitiator.readMessage2 S msg2).run (xkInitiator si ei sr rs s₁ none) =
      .ok epochR (xkInitiator si ei sr rs t₂ (some er.pub)) := by
    rw [← hmsg2, ← ht₂]
    exact NoiseXkInitiator.readMessage2_run hS hee hs₂ epochR
  have hwrite3 : (NoiseXkInitiator.writeMessage3 S si.pub epochI 128).run
      (xkInitiator si ei sr rs t₂ (some er.pub)) =
        .ok msg3 (xkInitiator si ei sr rs t₃ (some er.pub)) := by
    rw [← hmsg3, ← ht₃]
    exact NoiseXkInitiator.writeMessage3_run hk rfl hse si.pub epochI (by decide)
  have hread3 : (NoiseXkResponder.readMessage3 S msg3).run (xkResponder ei t₂ (some er.secret)) =
      .ok (si.pub, epochI) (xkResponder ei t₃ (some er.secret)) := by
    have he : (xkResponder ei t₂ (some er.secret)).ePriv = some er.secret := rfl
    rw [← hmsg3, ← ht₃]
    exact NoiseXkResponder.readMessage3_run hS rfl hk he hse' epochI
  have hack {n : ℕ} (hn : 175 ≤ n) := buildSessionAck_eq_ok (nodeAddr S (xOnly sr.pub))
    (nodeAddr S (ei.pub.bytes.drop 1)) (show msg2.length ≤ 132 by omega) hn
  exact ⟨{
    fresh := .xk (xkInitiator si ei sr rs s₀ none)
    opened := .xk (xkInitiator si ei sr rs s₁ none)
    answered := .xk (xkInitiator si ei sr rs t₂ (some er.pub))
    done := .xk (xkInitiator si ei sr rs t₃ (some er.pub))
    waiting := .xk (xkResponder ei t₂ (some er.secret))
    finished := .xk (xkResponder ei t₃ (some er.secret))
    ack := fun _ => ackOf (nodeAddr S (xOnly sr.pub)) (nodeAddr S (ei.pub.bytes.drop 1)) msg2
    msg2 := msg2
    msg3 := msg3
    new_eq := by simp [SessionInitiator.new, hnew]
    writeMsg1_run := fun hn => by
      rw [EStateM.run, SessionInitiator.writeMsg1, hwrite1 hn]
      rfl
    answerSetup_eq := fun _ _ hn => by
      simp [FspSession.answerSetup, hanswer, hsr, call_eq_ok hwrite2, hack hn, - List.drop_one]
    parse_ack := fun _ => parseSessionAck_buildSessionAck (hack le_rfl)
    readMsg2_run := by rw [EStateM.run, SessionInitiator.readMsg2, hread2]
    writeMsg3_run := by rw [EStateM.run, SessionInitiator.writeMsg3, hwrite3]
    msg3_length := by omega
    msg3LengthOk := by simp [FspSession.msg3LengthOk, hlen3]
    readMsg3_run := by
      rw [EStateM.run, SessionResponder.readMsg3, run_bind_ok hread3]
      rfl
    keys := rfl }⟩

def xxInitiator (sym : SymmetricState) (rePub rsPub : Option (Block 33)) : NoiseXxInitiator where
  sym := sym
  ePriv := ei.secret
  ePub := ei.pub
  sPriv := si.secret
  rePub := rePub
  rsPub := rsPub

def xxResponder (sym : SymmetricState) (eiPub : Option (Block 33)) (e : Option (Keypair S))
    (rsPub : Option (Block 33)) : NoiseXxResponder where
  sym := sym
  sPriv := sr.secret
  sPub := sr.pub
  ePriv := e.map Keypair.secret
  ePub := e.map Keypair.pub
  eiPub := eiPub
  rsPub := rsPub

theorem nonempty_exchange_xx (hS : S.Lawful) :
    Nonempty (Exchange S .xx si ei sr er rs epochI epochR) := by
  obtain ⟨neg, hneg⟩ : ∃ neg, encodePayload negotiationMaxSize 0 0 0 = some neg := ⟨_, rfl⟩
  have hneglen : neg.length = 10 := encodePayload_length hneg
  have hfits : neg.length ≤ negotiationMaxSize := by
    rw [hneglen]
    decide
  have hroom2 : neg.length + 16 ≤ xxHandshakeMsg2Size + negotiationMaxSize + tagSize - 106 := by
    rw [hneglen]
    decide
  have hroom3 : neg.length + 16 ≤ xxHandshakeMsg3Size + negotiationMaxSize + tagSize - 73 := by
    rw [hneglen]
    decide
  obtain ⟨i₀, i₁, hnew, hwrite1⟩ := exists_xxMsg1 ei si
  obtain ⟨r₀, r₁, base2, r₂, neg2, r₃, hanswer, hread1, hwrite2, hlen2, hseal2, hneglen2, i₂, i₃,
      base3, i₄, neg3, i₅, hread2, hopen2, -, hwrite3, hlen3, hseal3, hneglen3, r₄, r₅, hread3,
      hopen3, hkeys⟩ :=
    exists_xxMsg2 hS er sr epochI epochR (le_refl 33) hnew (hwrite1 33 le_rfl)
      (show 106 ≤ xxHandshakeMsg2Size + negotiationMaxSize + tagSize by decide)
      (show 73 ≤ xxHandshakeMsg3Size + negotiationMaxSize + tagSize by decide) hroom2 hroom3 hfits
      hfits
  rw [← hlen2] at hseal2
  rw [← hlen3] at hseal3
  have hsplit2 : splitMsg2Noise (base2 ++ neg2) = (base2, some neg2) :=
    splitHandshakeNoise_append hlen2 (by omega)
  have hsplit3 : splitMsg3Noise (base3 ++ neg3) = (base3, some neg3) :=
    splitHandshakeNoise_append hlen3 (by omega)
  have hsr := ecdhPubkey_eq_ok sr.publicKey_secret
  have hpin : sr.pub.bytes.drop 1 = rs.pub.bytes.drop 1 := rs.sameX.symm
  have hack (setupSrc : Block 16) {n : ℕ} (hn : 175 ≤ n) := buildSessionAck_eq_ok
    (nodeAddr S (xOnly sr.pub)) setupSrc
    (show (base2 ++ neg2).length ≤ 132 by rw [List.length_append]; omega) hn
  exact ⟨{
    fresh := .xx i₀
    opened := .xx i₁
    answered := .xx i₃
    done := .xx i₅
    waiting := .xx r₃
    finished := .xx r₅
    ack := fun setupSrc => ackOf (nodeAddr S (xOnly sr.pub)) setupSrc (base2 ++ neg2)
    msg2 := base2 ++ neg2
    msg3 := base3 ++ neg3
    new_eq := by simp [SessionInitiator.new, hnew]
    writeMsg1_run := fun {n} hn => by
      rw [EStateM.run, SessionInitiator.writeMsg1, hwrite1 n hn]
      rfl
    answerSetup_eq := fun setupSrc _ hn => by
      simp [FspSession.answerSetup, hanswer, hsr, hneg, call_eq_ok hread1, call_eq_ok hwrite2,
        call_eq_ok hseal2, hack setupSrc hn]
    parse_ack := fun setupSrc => parseSessionAck_buildSessionAck (hack setupSrc le_rfl)
    readMsg2_run := by
      rw [EStateM.run, SessionInitiator.readMsg2]
      simp only [hsplit2, hread2, hpin, EStateM.ignore_run hopen2, ne_eq, not_true_eq_false,
        if_false]
    writeMsg3_run := by
      rw [EStateM.run, SessionInitiator.writeMsg3]
      simp only [hwrite3, hneg, hseal3]
    msg3_length := by
      rw [List.length_append]
      omega
    msg3LengthOk := by simp [FspSession.msg3LengthOk, hlen3, xxHandshakeMsg3Size, tagSize]
    readMsg3_run := by
      rw [EStateM.run, SessionResponder.readMsg3]
      simp only [hsplit3, run_bind_ok hread3, run_bind_ok (EStateM.ignore_run hopen3)]
      rfl
    keys := hkeys }⟩

theorem nonempty_exchange (hS : S.Lawful) (build : Build) :
    Nonempty (Exchange S build si ei sr er rs epochI epochR) := by
  cases build with
  | ik => exact nonempty_exchange_ik si ei sr er rs epochI epochR hS
  | xx => exact nonempty_exchange_xx si ei sr er rs epochI epochR hS

end Exchange

def initiatorSession {S : Suite} {sr : Keypair S} (si : Keypair S) (rs : HeldKey sr)
    (state : FspInitiatorState) (i : SessionInitiator) (keys : Option (Block 32 × Block 32)) :
    FspInitiatorSession where
  state := state
  initiator := some i
  kRecv := keys.map Prod.snd
  kSend := keys.map Prod.fst
  myPub := si.pub
  pinnedResponderPub := rs.pub
  sendCounter := 0

section InitiatorSession

variable {S : Suite} {si sr : Keypair S} {rs : HeldKey sr} {i j : SessionInitiator}

theorem buildSetup_ok {srcAddr dstAddr : Block 16} {n : ℕ} {msg1 setup : Bytes}
    {fsp : FspInitiatorSession} (hwrite : (SessionInitiator.writeMsg1 S 64).run i = .ok msg1 j)
    (hrun : (FspInitiatorSession.buildSetup S srcAddr dstAddr n).run
      (initiatorSession si rs .idle i none) = .ok setup fsp) :
    buildSessionSetup 0x00 [srcAddr] [dstAddr] msg1 n = .ok setup ∧
      fsp = initiatorSession si rs .awaitingAck j none := by
  have hlift : (FspInitiatorSession.liftNoise (SessionInitiator.writeMsg1 S 64)).run i =
      .ok msg1 j := by
    rw [EStateM.run, FspInitiatorSession.liftNoise, hwrite]
  cases hbuild : buildSessionSetup 0x00 [srcAddr] [dstAddr] msg1 n with
  | error e =>
      simp [FspInitiatorSession.buildSetup, FspInitiatorSession.onInitiator, initiatorSession,
        hlift, hbuild] at hrun
  | ok setup' =>
      simp [FspInitiatorSession.buildSetup, FspInitiatorSession.onInitiator, initiatorSession,
        hlift, hbuild] at hrun
      exact ⟨congrArg Except.ok hrun.1, hrun.2.symm⟩

theorem handleAck_of_readMsg2 {ack handshake : Bytes} (hparse : parseSessionAck ack = .ok handshake)
    (hread : (SessionInitiator.readMsg2 S rs.pub handshake).run i = .ok ⟨⟩ j) :
    (FspInitiatorSession.handleAck S ack).run (initiatorSession si rs .awaitingAck i none) =
      .ok ⟨⟩ (initiatorSession si rs .awaitingEstablished j none) := by
  simp [FspInitiatorSession.handleAck, FspInitiatorSession.onInitiator, initiatorSession, hparse,
    hread]

theorem buildMsg3_of_writeMsg3 {epochI : Block 8} {n : ℕ} {msg3 packet : Bytes}
    (hwrite : (SessionInitiator.writeMsg3 S si.pub epochI).run i = .ok msg3 j)
    (hbuild : buildSessionMsg3 msg3 n = .ok packet) :
    (FspInitiatorSession.buildMsg3 S epochI n).run
      (initiatorSession si rs .awaitingEstablished i none) =
        .ok packet (initiatorSession si rs .established j (some (j.finalize S))) := by
  simp [FspInitiatorSession.buildMsg3, FspInitiatorSession.onInitiator, initiatorSession, hwrite,
    hbuild]

end InitiatorSession

namespace Exchange

variable {S : Suite} {build : Build} {si ei sr er : Keypair S} {rs : HeldKey sr}
  {epochI epochR : Block 8} (x : Exchange S build si ei sr er rs epochI epochR)

def msg3Packet : Bytes :=
  fspPrefix .sessionMsg3 0x00 (1 + 2 + x.msg3.length) ++ 0x00 ::
    (Bytes.ofNat 2 x.msg3.length ++ x.msg3)

theorem new_initiator : FspInitiatorSession.new S build si.secret ei.secret rs.pub =
    .ok (initiatorSession si rs .idle x.fresh none) := by
  simp [FspInitiatorSession.new, x.new_eq, ecdhPubkey_eq_ok si.publicKey_secret, initiatorSession]

variable {setup : Bytes} {n respLen : ℕ} {flags : UInt8} {first : Block 16}

theorem buildSetup_run {srcAddr dstAddr : Block 16}
    (hsetup : buildSessionSetup 0x00 [srcAddr] [dstAddr] ei.pub.bytes n = .ok setup) :
    (FspInitiatorSession.buildSetup S srcAddr dstAddr n).run
      (initiatorSession si rs .idle x.fresh none) =
        .ok setup (initiatorSession si rs .awaitingAck x.opened none) := by
  have hwrite : (FspInitiatorSession.liftNoise (SessionInitiator.writeMsg1 S 64)).run x.fresh =
      .ok ei.pub.bytes x.opened := by
    rw [EStateM.run, FspInitiatorSession.liftNoise, x.writeMsg1_run (by decide)]
  simp [FspInitiatorSession.buildSetup, FspInitiatorSession.onInitiator, initiatorSession, hwrite,
    hsetup]

theorem handleAck_run (setupSrc : Block 16) :
    (FspInitiatorSession.handleAck S (x.ack setupSrc)).run
      (initiatorSession si rs .awaitingAck x.opened none) =
        .ok ⟨⟩ (initiatorSession si rs .awaitingEstablished x.answered none) :=
  handleAck_of_readMsg2 (x.parse_ack setupSrc) x.readMsg2_run

theorem buildMsg3_run (hn : 106 ≤ n) :
    (FspInitiatorSession.buildMsg3 S epochI n).run
      (initiatorSession si rs .awaitingEstablished x.answered none) =
        .ok x.msg3Packet (initiatorSession si rs .established x.done
          (some (x.done.finalize S))) := by
  have hlen := x.msg3_length
  exact buildMsg3_of_writeMsg3 x.writeMsg3_run (if_neg (by omega))

def Waits (s : FspSession) : Prop :=
  s.state = .awaitingMsg3 ∧ s.responder = some x.waiting

def Established (s : FspSession) : Prop :=
  s.state = .established ∧ s.kRecv = some (x.done.finalize S).1 ∧
    s.kSend = some (x.done.finalize S).2

theorem handleSetup_run (hparse : parseSessionSetupFull setup = .ok (flags, first, ei.pub.bytes))
    (hn : 175 ≤ n) {s : FspSession} (hs : s.state = .idle) :
    (FspSession.handleSetup S build sr.secret er.secret epochR setup n).run s =
      .ok (x.ack first) { s with responder := some x.waiting, state := .awaitingMsg3 } := by
  simp [FspSession.handleSetup, hs, hparse, x.answerSetup_eq first hn]

theorem handleMsg3_run {s : FspSession} (hs : x.Waits s) :
    ∃ t, (FspSession.handleMsg3 S build x.msg3Packet).run s = .ok ⟨⟩ t ∧ x.Established t := by
  have hlen := x.msg3_length
  have hbuild : buildSessionMsg3 x.msg3 106 = .ok x.msg3Packet := if_neg (by omega)
  have hparse : parseSessionMsg3 x.msg3Packet = .ok x.msg3 :=
    parseSessionMsg3_buildSessionMsg3 (by omega) hbuild
  refine ⟨{
    state := .established
    responder := none
    kRecv := some (x.finished.finalize S).1
    kSend := some (x.finished.finalize S).2
    initiatorPub := some si.pub
    sendCounter := s.sendCounter }, ?_, rfl, ?_, ?_⟩
  · simp [FspSession.handleMsg3, hs.1, hs.2, hparse, x.msg3LengthOk, x.readMsg3_run]
  · rw [x.keys]
  · rw [x.keys]

variable {A : Type}

/-- The handler answers sessions with the keys and the epoch of the responder. -/
structure Serves (_ : Exchange S build si ei sr er rs epochI epochR) (h : FspDualHandler A) :
    Prop where
  nsec : h.nsec = sr.secret
  fspEphemeral : h.fspEphemeral = er.secret
  fspEpoch : h.fspEpoch = epochR

open FspDualHandler

variable {h : FspDualHandler A}

/-- A session in any state answers the setup with the one ack of the exchange. -/
theorem handleResponderSetup_run (hh : x.Serves h) (replyBody : Bytes)
    (hparse : parseSessionSetupFull setup = .ok (flags, first, ei.pub.bytes))
    (hresp : 210 ≤ respLen) :
    ∃ s, x.Waits s ∧ (handleResponderSetup S build replyBody setup respLen).run h =
      .ok (.sendDatagram (replyBody ++ x.ack first)) { h with fspSession := s } := by
  have hroom : ¬ respLen ≤ sessionDatagramBodySize := by
    rw [sessionDatagramBodySize]
    omega
  have hn : 175 ≤ respLen - sessionDatagramBodySize := by
    rw [sessionDatagramBodySize]
    omega
  rw [handleResponderSetup, if_neg hroom]
  by_cases hidle : h.fspSession.state = .idle
  · refine ⟨{ h.fspSession with responder := some x.waiting, state := .awaitingMsg3 },
      ⟨rfl, rfl⟩, ?_⟩
    have hsetup : (FspDualHandler.handleSetup S build setup (respLen - sessionDatagramBodySize)).run
        h = .ok (.ok (x.ack first)) { h with fspSession :=
          { h.fspSession with responder := some x.waiting, state := .awaitingMsg3 } } := by
      simp [FspDualHandler.handleSetup, hh.nsec, hh.fspEphemeral, hh.fspEpoch, onSession_run,
        x.handleSetup_run hparse hn hidle]
    rw [run_bind_ok hsetup]
    rfl
  · refine ⟨{ FspSession.new with responder := some x.waiting, state := .awaitingMsg3 },
      ⟨rfl, rfl⟩, ?_⟩
    have hbusy : (FspDualHandler.handleSetup S build setup (respLen - sessionDatagramBodySize)).run
        h = .ok (.error .invalidState) h := by
      simp [FspDualHandler.handleSetup, onSession_run, FspSession.handleSetup, hidle]
    have hsetup : (FspDualHandler.handleSetup S build setup (respLen - sessionDatagramBodySize)).run
        { h with fspSession := FspSession.new } = .ok (.ok (x.ack first)) { h with fspSession :=
          { FspSession.new with responder := some x.waiting, state := .awaitingMsg3 } } := by
      have hnew : FspSession.new.state = .idle := rfl
      simp [FspDualHandler.handleSetup, hh.nsec, hh.fspEphemeral, hh.fspEpoch, onSession_run,
        x.handleSetup_run hparse hn hnew]
    have hreset : (modify fun self : FspDualHandler A =>
        { self with fspSession := FspSession.new } :
        Action A PUnit).run h = .ok ⟨⟩ { h with fspSession := FspSession.new } := rfl
    rw [run_bind_ok hbusy]
    dsimp only
    rw [run_bind_ok hreset, run_bind_ok hsetup]
    rfl

theorem Serves.withSession (hh : x.Serves h) (s : FspSession) :
    x.Serves { h with fspSession := s } :=
  ⟨hh.nsec, hh.fspEphemeral, hh.fspEpoch⟩

structure Opens (_ : Exchange S build si ei sr er rs epochI epochR) (setup : Bytes)
    (first : Block 16) : Prop where
  hasPhase : HasPhase .sessionSetup setup
  parse : ∃ flags, parseSessionSetupFull setup = .ok (flags, first, ei.pub.bytes)

theorem opens_of_build {rest destCoords : List (Block 16)}
    (hsetup : buildSessionSetup flags (first :: rest) destCoords ei.pub.bytes n = .ok setup) :
    x.Opens setup first := by
  refine ⟨?_, flags, parseSessionSetupFull_buildSessionSetup hsetup⟩
  obtain ⟨-, -, rfl⟩ := buildSessionHandshake_ok hsetup
  exact hasPhase_fspPrefix _ _ _ _

theorem onMessage_setup (handler : FspAppHandler A) (appBuf now : ℕ) (hh : x.Serves h)
    (src dst : Block 16) (hsetup : x.Opens setup first) (hresp : 210 ≤ respLen) :
    ∃ s, x.Waits s ∧ (onMessage S build handler appBuf now msgSessionDatagram
      (buildSessionDatagramBody src dst ++ setup) respLen).run h =
        .ok (.sendDatagram (buildSessionDatagramBody dst src ++ x.ack first))
          { h with fspSession := s } := by
  obtain ⟨flags, hparse⟩ := hsetup.parse
  obtain ⟨s, hs, hrun⟩ := x.handleResponderSetup_run hh (buildSessionDatagramBody dst src) hparse
    hresp
  refine ⟨s, hs, ?_⟩
  rw [onMessage, handleResponder_setup _ _ _ _ hsetup.hasPhase, run_bind_ok hrun]
  rfl

theorem onMessage_setups (handler : FspAppHandler A) (appBuf now : ℕ) (hh : x.Serves h)
    (src dst : Block 16) (hsetup : x.Opens setup first) (hresp : 210 ≤ respLen) (copies : ℕ) :
    ∃ s, x.Waits s ∧ ((List.replicate (copies + 1)
      (buildSessionDatagramBody src dst ++ setup)).mapM fun payload =>
        onMessage S build handler appBuf now msgSessionDatagram payload respLen).run h =
          .ok (List.replicate (copies + 1)
            (.sendDatagram (buildSessionDatagramBody dst src ++ x.ack first)))
            { h with fspSession := s } := by
  induction copies generalizing h with
  | zero =>
      obtain ⟨s, hs, hrun⟩ := x.onMessage_setup handler appBuf now hh src dst hsetup hresp
      refine ⟨s, hs, ?_⟩
      rw [List.replicate_succ, List.mapM_cons, run_bind_ok hrun]
      rfl
  | succ copies ih =>
      obtain ⟨s, -, hrun⟩ := x.onMessage_setup handler appBuf now hh src dst hsetup hresp
      obtain ⟨t, ht, hruns⟩ := ih (hh.withSession x s)
      refine ⟨t, ht, ?_⟩
      rw [List.replicate_succ, List.mapM_cons, run_bind_ok hrun, run_bind_ok hruns]
      rfl

theorem handleResponderMsg3_run (hh : x.Waits h.fspSession) :
    ∃ t, (handleResponderMsg3 S build x.msg3Packet).run h = .ok .none t ∧
      x.Established t.fspSession := by
  obtain ⟨s, hrun, hs⟩ := x.handleMsg3_run hh
  refine ⟨{ h with
    fspSession := s
    trace := .established (ephemeralOf x.waiting) (x.done.finalize S).1 (x.done.finalize S).2 ::
      h.trace }, ?_, hs⟩
  simp [handleResponderMsg3, onSession_run, hrun, hh.2, FspSession.sessionKeys, hs.2.1, hs.2.2]

theorem onMessage_msg3 (handler : FspAppHandler A) (appBuf now : ℕ) (hh : x.Waits h.fspSession)
    (src dst : Block 16) (hresp : 210 ≤ respLen) :
    ∃ r t, (onMessage S build handler appBuf now msgSessionDatagram
      (buildSessionDatagramBody src dst ++ x.msg3Packet) respLen).run h = .ok r t ∧
        x.Established t.fspSession := by
  have hphase : HasPhase .sessionMsg3 x.msg3Packet := hasPhase_fspPrefix _ _ _ _
  have hfit : CountsFit ((buildSessionDatagramBody src dst ++ x.msg3Packet).drop
      sessionDatagramBodySize) := by
    rw [drop_buildSessionDatagramBody]
    exact .of_msg3 hphase
  obtain ⟨t, hmsg3, ht⟩ := x.handleResponderMsg3_run hh
  -- the handler also offers the datagram to its initiator, which leaves the session alone
  have hquiet := quiet_handleInitiator S now msgSessionDatagram
    (buildSessionDatagramBody src dst ++ x.msg3Packet) respLen t
  obtain ⟨r, u, hinit, -⟩ | ⟨e, -⟩ := (returns_handleInitiator (S := S) (h := t) now
    msgSessionDatagram hfit (show 141 ≤ respLen by omega)).cases
  · refine ⟨r, u, ?_, ?_⟩
    · rw [onMessage, handleResponder_msg3 _ _ _ _ hphase, run_bind_ok hmsg3]
      exact hinit
    · rw [hinit] at hquiet
      have hsession : u.fspSession = t.fspSession := congrArg Prod.fst hquiet
      rw [hsession]
      exact ht
  · cases e

end Exchange

open FspDualHandler in
/-- For both builds and whatever the keys, epochs, flags, coordinates and addresses: an initiator
builds a setup, every copy of a setup with its first message draws the same ack from the responder,
whose session may be in any state before, the initiator accepts that ack, the responder accepts the
msg3 on it, and the two sessions are established with each other's keys. -/
theorem session_agreement {S : Suite} (hS : S.Lawful) (build : Build) (si ei sr er : Keypair S)
    (rs : HeldKey sr) (epochI : Block 8) {A : Type} (handler : FspAppHandler A) (appBuf now : ℕ)
    {h : FspDualHandler A} (hnsec : h.nsec = sr.secret) (heph : h.fspEphemeral = er.secret)
    (srcAddr dstAddr : Block 16) {flags : UInt8} {srcCoords destCoords : List (Block 16)}
    {setup : Bytes} {outLen respLen : ℕ} (hresp : 210 ≤ respLen)
    (hsetup : buildSessionSetup flags srcCoords destCoords ei.pub.bytes outLen = .ok setup)
    (copies : ℕ) :
    ∃ fsp₀ fsp₁ fsp₂ fsp₃ ownSetup ack msg3 h₁ r h₂,
      FspInitiatorSession.new S build si.secret ei.secret rs.pub = .ok fsp₀ ∧
      (FspInitiatorSession.buildSetup S srcAddr dstAddr 512).run fsp₀ = .ok ownSetup fsp₁ ∧
      buildSessionSetup 0x00 [srcAddr] [dstAddr] ei.pub.bytes 512 = .ok ownSetup ∧
      ((List.replicate (copies + 1) (buildSessionDatagramBody srcAddr dstAddr ++ setup)).mapM
        fun payload => onMessage S build handler appBuf now msgSessionDatagram payload
          respLen).run h =
        .ok (List.replicate (copies + 1)
          (.sendDatagram (buildSessionDatagramBody dstAddr srcAddr ++ ack))) h₁ ∧
      (FspInitiatorSession.handleAck S ack).run fsp₁ = .ok ⟨⟩ fsp₂ ∧
      (FspInitiatorSession.buildMsg3 S epochI 512).run fsp₂ = .ok msg3 fsp₃ ∧
      (onMessage S build handler appBuf now msgSessionDatagram
        (buildSessionDatagramBody srcAddr dstAddr ++ msg3) respLen).run h₁ = .ok r h₂ ∧
      fsp₃.state = .established ∧ h₂.fspSession.state = .established ∧
      ∃ kSend kRecv, fsp₃.kSend = some kSend ∧ h₂.fspSession.kRecv = some kSend ∧
        fsp₃.kRecv = some kRecv ∧ h₂.fspSession.kSend = some kRecv := by
  obtain ⟨x⟩ := nonempty_exchange si ei sr er rs epochI h.fspEpoch hS build
  obtain ⟨hcoords, -, -⟩ := buildSessionHandshake_ok hsetup
  obtain ⟨first, rest, rfl⟩ := List.exists_cons_of_ne_nil hcoords
  have hown := buildSessionSetup_eq_ok srcAddr dstAddr ei.pub
  obtain ⟨s, hs, hruns⟩ := x.onMessage_setups handler appBuf now ⟨hnsec, heph, rfl⟩ srcAddr dstAddr
    (x.opens_of_build hsetup) hresp copies
  obtain ⟨r, h₂, hmsg3, hestablished⟩ := x.onMessage_msg3 handler appBuf now
    (h := { h with fspSession := s }) hs srcAddr dstAddr hresp
  exact ⟨_, _, _, _, _, _, _, _, r, h₂, x.new_initiator, x.buildSetup_run hown, hown, hruns,
    x.handleAck_run first, x.buildMsg3_run (by decide), hmsg3, rfl, hestablished.1, _, _, rfl,
    hestablished.2.1, rfl, hestablished.2.2⟩

open FspDualHandler FspDualHandler.Scenario in
/-- Three copies of a setup with two source coordinates. -/
theorem session_agreement_three_copies :
    ∃ (setup ack msg3 : Bytes) (fsp : FspInitiatorSession) (r : HandleResult)
      (h h' : FspDualHandler PUnit),
      buildSessionSetup 0x01 [Block.replicate 16 1, Block.replicate 16 2] [Block.replicate 16 3]
        (Additive.keypair 2).pub.bytes 512 = .ok setup ∧
      ((List.replicate 3 (buildSessionDatagramBody (Block.replicate 16 1) (Block.replicate 16 3) ++
        setup)).mapM fun payload => onMessage Additive.suite .xx silent 512 0 msgSessionDatagram
          payload 320).run (newResponder (Additive.keypair 3).secret (Additive.keypair 4).secret
            (Block.replicate 8 6) ⟨⟩) =
        .ok (List.replicate 3 (.sendDatagram (buildSessionDatagramBody (Block.replicate 16 3)
          (Block.replicate 16 1) ++ ack))) h ∧
      (onMessage Additive.suite .xx silent 512 0 msgSessionDatagram (buildSessionDatagramBody
        (Block.replicate 16 1) (Block.replicate 16 3) ++ msg3) 320).run h = .ok r h' ∧
      fsp.kSend = h'.fspSession.kRecv ∧ h'.fspSession.state = .established := by
  obtain ⟨setup, hsetup⟩ : ∃ setup, buildSessionSetup 0x01
      [Block.replicate 16 1, Block.replicate 16 2] [Block.replicate 16 3]
      (Additive.keypair 2).pub.bytes 512 = .ok setup := ⟨_, rfl⟩
  obtain ⟨_, _, _, fsp, _, ack, msg3, h, r, h', -, -, -, hacks, -, -, hmsg3, -, hstate, k, _, hsend,
    hrecv, -⟩ := session_agreement Additive.suite_lawful .xx (Additive.keypair 1)
      (Additive.keypair 2) (Additive.keypair 3) (Additive.keypair 4) (Additive.oddKey 3)
      (Block.replicate 8 5) silent 512 0 (h := newResponder (Additive.keypair 3).secret
        (Additive.keypair 4).secret (Block.replicate 8 6) ⟨⟩) rfl rfl (Block.replicate 16 1)
      (Block.replicate 16 3) (show 210 ≤ 320 by decide) hsetup 2
  exact ⟨setup, ack, msg3, fsp, r, h, h', hsetup, hacks, hmsg3, hsend.trans hrecv.symm, hstate⟩

end Session
end Microfips

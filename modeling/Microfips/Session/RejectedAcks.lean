import Microfips.Noise.Transcript
import Microfips.Session.Agreement

/-!
# Rejected acks

`handle_ack` reads msg2 into the stored handshake.  An ack that is malformed, or whose ephemeral key
is not valid, is rejected before it reaches the keys, and an initiator that has seen any number of
such acks accepts the genuine one.  Behind a valid ephemeral key the chaining key is replaced before
anything is authenticated, and the genuine ack no longer opens.
-/

namespace Microfips
namespace Session

open Noise Wire EStateM

/-- The part of the handshake bytes of an ack that `read_message2` reads. -/
def msg2Part : Build → Bytes → Bytes
  | .ik, handshake => handshake
  | .xx, handshake => (splitMsg2Noise handshake).1

def msg2Size : Build → ℕ
  | .ik => 33 + 8 + tagSize
  | .xx => xxHandshakeMsg2Size

/-- The bytes of msg2 with another length or no valid ephemeral key. -/
def unreadableMsg2 (S : Suite) (build : Build) (ePriv : Block 32) (handshake : Bytes) : Bool :=
  (msg2Part build handshake).length ≠ msg2Size build ||
    (xOnlyEcdh S ePriv (Block.ofBytes 33 ((msg2Part build handshake).take 33))).toOption.isNone

/-- An ack that does not parse, or whose msg2 has another length or no valid ephemeral key. -/
def unreadable (S : Suite) (build : Build) (ePriv : Block 32) (ack : Bytes) : Bool :=
  match parseSessionAck ack with
  | .error _ => true
  | .ok handshake => unreadableMsg2 S build ePriv handshake

theorem ne_or_ne_of_unreadableMsg2 {S : Suite} {build : Build} {ePriv : Block 32}
    {handshake : Bytes}
    (h : unreadableMsg2 S build ePriv handshake = true) :
    (msg2Part build handshake).length ≠ msg2Size build ∨
      ∀ ee, xOnlyEcdh S ePriv (Block.ofBytes 33 ((msg2Part build handshake).take 33)) ≠ .ok ee := by
  rw [unreadableMsg2, Bool.or_eq_true] at h
  rcases h with h | h
  · exact .inl (of_decide_eq_true h)
  · refine .inr fun ee hee => ?_
    rw [hee] at h
    cases h

namespace SessionInitiator

variable {S : Suite} {build : Build} {ePriv : Block 32} {i j l : SessionInitiator}

def Has (build : Build) (ePriv : Block 32) : SessionInitiator → Prop
  | xk i => build = .ik ∧ i.ePriv = ePriv
  | xx i => build = .xx ∧ i.ePriv = ePriv

inductive SameButHash : SessionInitiator → SessionInitiator → Prop
  | xk {i j : NoiseXkInitiator} (h : i.SameButHash j) : SameButHash (.xk i) (.xk j)
  | xx {i j : NoiseXxInitiator} (h : i.SameButHash j) : SameButHash (.xx i) (.xx j)

inductive SameButAnswer : SessionInitiator → SessionInitiator → Prop
  | xk {i j : NoiseXkInitiator} (h : i.SameButAnswer j) : SameButAnswer (.xk i) (.xk j)
  | xx {i j : NoiseXxInitiator} (h : i.SameButAnswer j) : SameButAnswer (.xx i) (.xx j)

theorem SameButAnswer.refl (i : SessionInitiator) : i.SameButAnswer i := by
  cases i with
  | xk i => exact .xk ⟨i.sym, i.rePub, .refl _, rfl⟩
  | xx i => exact .xx ⟨i.sym, i.rePub, .refl _, rfl⟩

theorem SameButAnswer.trans (h : i.SameButAnswer j) (h' : j.SameButAnswer l) :
    i.SameButAnswer l := by
  cases h with
  | xk h =>
      cases h' with
      | xk h' => exact .xk (h.trans h')
  | xx h =>
      cases h' with
      | xx h' => exact .xx (h.trans h')

theorem SameButAnswer.has (h : i.SameButAnswer j) (hi : i.Has build ePriv) : j.Has build ePriv := by
  cases h with
  | xk h =>
      obtain ⟨u, rePub, -, rfl⟩ := h
      exact hi
  | xx h =>
      obtain ⟨u, rePub, -, rfl⟩ := h
      exact hi

theorem SameButHash.finalize_eq (h : i.SameButHash j) : i.finalize S = j.finalize S := by
  cases h with
  | xk h =>
      obtain ⟨u, hu, rfl⟩ := h
      exact hu.finalize_eq
  | xx h =>
      obtain ⟨u, hu, rfl⟩ := h
      exact hu.finalize_eq

variable {pinned myPub : Block 33} {handshake msg3 : Bytes} {i' : SessionInitiator}
  {epoch : Block 8}

theorem readMsg2_xk_run {i j : NoiseXkInitiator} (h : i.SameButAnswer j)
    (hrun : (readMsg2 S pinned handshake).run (.xk i) = .ok ⟨⟩ i') :
    ∃ j', (readMsg2 S pinned handshake).run (.xk j) = .ok ⟨⟩ j' ∧ i'.SameButHash j' := by
  rw [EStateM.run, readMsg2] at hrun ⊢
  cases hi : (NoiseXkInitiator.readMessage2 S handshake).run i with
  | error e i₁ =>
      rw [hi] at hrun
      cases hrun
  | ok epoch i₁ =>
      rw [hi] at hrun
      cases hrun
      obtain ⟨j₁, hj, h₁⟩ := (NoiseXkInitiator.inStep_readMessage2 handshake).exists_ok h hi
      rw [hj]
      exact ⟨_, rfl, .xk h₁⟩

theorem readMsg2_xx_run {i j : NoiseXxInitiator} (h : i.SameButAnswer j)
    (hrun : (readMsg2 S pinned handshake).run (.xx i) = .ok ⟨⟩ i') :
    ∃ j', (readMsg2 S pinned handshake).run (.xx j) = .ok ⟨⟩ j' ∧ i'.SameButHash j' := by
  rw [EStateM.run, readMsg2] at hrun ⊢
  cases hi : (NoiseXxInitiator.readMessage2 S (splitMsg2Noise handshake).1).run i with
  | error e i₁ =>
      rw [hi] at hrun
      cases hrun
  | ok p i₁ =>
      obtain ⟨j₁, hj, h₁⟩ := (NoiseXxInitiator.inStep_readMessage2 _).exists_ok h hi
      rw [hi] at hrun
      rw [hj]
      by_cases hpin : p.1.bytes.drop 1 ≠ pinned.bytes.drop 1
      · dsimp only at hrun
        rw [if_pos hpin] at hrun
        cases hrun
      · dsimp only at hrun ⊢
        rw [if_neg hpin] at hrun ⊢
        cases hextra : (splitMsg2Noise handshake).2 with
        | none =>
            rw [hextra] at hrun
            cases hrun
            exact ⟨_, rfl, .xx h₁⟩
        | some enc =>
            have hstep := (NoiseXxInitiator.inStep_decryptPayload (S := S) enc
              negotiationMaxSize).ignore
            rw [hextra] at hrun
            dsimp only at hrun ⊢
            cases hdec : (EStateM.ignore
                (NoiseXxInitiator.decryptPayload S enc negotiationMaxSize)).run i₁ with
            | error e i₂ =>
                rw [hdec] at hrun
                cases hrun
            | ok _ i₂ =>
                rw [hdec] at hrun
                cases hrun
                obtain ⟨j₂, hj₂, h₂⟩ := hstep.exists_ok h₁ hdec
                rw [hj₂]
                exact ⟨_, rfl, .xx h₂⟩

theorem SameButAnswer.readMsg2_run (h : i.SameButAnswer j)
    (hrun : (readMsg2 S pinned handshake).run i = .ok ⟨⟩ i') :
    ∃ j', (readMsg2 S pinned handshake).run j = .ok ⟨⟩ j' ∧ i'.SameButHash j' := by
  cases h with
  | xk h => exact readMsg2_xk_run h hrun
  | xx h => exact readMsg2_xx_run h hrun

theorem writeMsg3_xk_run {i j : NoiseXkInitiator} (h : i.SameButHash j)
    (hrun : (writeMsg3 S myPub epoch).run (.xk i) = .ok msg3 i') :
    ∃ j', (writeMsg3 S myPub epoch).run (.xk j) = .ok msg3 j' ∧ i'.SameButHash j' := by
  rw [EStateM.run, writeMsg3] at hrun ⊢
  cases hi : (NoiseXkInitiator.writeMessage3 S myPub epoch 128).run i with
  | error e i₁ =>
      rw [hi] at hrun
      cases hrun
  | ok m i₁ =>
      rw [hi] at hrun
      cases hrun
      obtain ⟨j₁, hj, h₁⟩ := (NoiseXkInitiator.inStep_writeMessage3 myPub epoch 128).exists_ok h hi
      rw [hj]
      exact ⟨_, rfl, .xk h₁⟩

theorem writeMsg3_xx_run {i j : NoiseXxInitiator} (h : i.SameButHash j)
    (hrun : (writeMsg3 S myPub epoch).run (.xx i) = .ok msg3 i') :
    ∃ j', (writeMsg3 S myPub epoch).run (.xx j) = .ok msg3 j' ∧ i'.SameButHash j' := by
  rw [EStateM.run, writeMsg3] at hrun ⊢
  generalize xxHandshakeMsg3Size + negotiationMaxSize + tagSize = room at hrun ⊢
  cases hi : (NoiseXxInitiator.writeMessage3 S myPub epoch room).run i with
  | error e i₁ =>
      rw [hi] at hrun
      cases hrun
  | ok m i₁ =>
      obtain ⟨j₁, hj, h₁⟩ := (NoiseXxInitiator.inStep_writeMessage3 myPub epoch room).exists_ok h hi
      rw [hi] at hrun
      rw [hj]
      dsimp only at hrun ⊢
      cases hneg : encodePayload negotiationMaxSize 0 0 0 with
      | none =>
          rw [hneg] at hrun
          cases hrun
      | some neg =>
          rw [hneg] at hrun
          dsimp only at hrun ⊢
          cases henc : (NoiseXxInitiator.encryptPayload S neg (room - m.length)).run i₁ with
          | error e i₂ =>
              rw [henc] at hrun
              cases hrun
          | ok c i₂ =>
              rw [henc] at hrun
              cases hrun
              obtain ⟨j₂, hj₂, h₂⟩ :=
                (NoiseXxInitiator.inStep_encryptPayload neg (room - m.length)).exists_ok h₁ henc
              rw [hj₂]
              exact ⟨_, rfl, .xx h₂⟩

theorem SameButHash.writeMsg3_run (h : i.SameButHash j)
    (hrun : (writeMsg3 S myPub epoch).run i = .ok msg3 i') :
    ∃ j', (writeMsg3 S myPub epoch).run j = .ok msg3 j' ∧ i'.SameButHash j' := by
  cases h with
  | xk h => exact writeMsg3_xk_run h hrun
  | xx h => exact writeMsg3_xx_run h hrun

theorem readMsg2_unreadable (hi : i.Has build ePriv) (pinned : Block 33)
    (hmsg2 : unreadableMsg2 S build ePriv handshake = true) :
    ∃ e j, (readMsg2 S pinned handshake).run i = .error (.err e) j ∧ i.SameButAnswer j := by
  have h := ne_or_ne_of_unreadableMsg2 hmsg2
  cases i with
  | xk i =>
      obtain ⟨rfl, rfl⟩ := hi
      obtain ⟨e, j, hrun, hj⟩ := NoiseXkInitiator.readMessage2_unreadable h
      rw [EStateM.run, readMsg2, show (NoiseXkInitiator.readMessage2 S handshake).run i = .error
        (.err e) j from hrun]
      exact ⟨_, _, rfl, .xk hj⟩
  | xx i =>
      obtain ⟨rfl, rfl⟩ := hi
      obtain ⟨e, j, hrun, hj⟩ := NoiseXxInitiator.readMessage2_unreadable h
      rw [EStateM.run, readMsg2,
        show (NoiseXxInitiator.readMessage2 S (splitMsg2Noise handshake).1).run i =
        .error (.err e) j from hrun]
      exact ⟨_, _, rfl, .xx hj⟩

theorem has_of_new {staticSecret : Block 32} {responderPub : Block 33}
    (hnew : SessionInitiator.new S build ePriv staticSecret responderPub = .ok i) :
    i.Has build ePriv := by
  cases build with
  | ik =>
      rw [SessionInitiator.new, NoiseXkInitiator.new] at hnew
      cases hpub : ecdhPubkey S ePriv with
      | error e =>
          rw [hpub] at hnew
          cases hnew
      | ok ePub =>
          rw [hpub] at hnew
          cases hnew
          exact ⟨rfl, rfl⟩
  | xx =>
      rw [SessionInitiator.new, NoiseXxInitiator.new] at hnew
      cases hpub : ecdhPubkey S ePriv with
      | error e =>
          rw [hpub] at hnew
          cases hnew
      | ok ePub =>
          rw [hpub] at hnew
          cases hnew
          exact ⟨rfl, rfl⟩

theorem Has.writeMsg1 (hi : i.Has build ePriv) {n : ℕ} (hn : 33 ≤ n) {msg1 : Bytes}
    (hwrite : (writeMsg1 S n).run i = .ok msg1 j) : j.Has build ePriv := by
  cases i with
  | xk i =>
      rw [EStateM.run, SessionInitiator.writeMsg1] at hwrite
      cases hes : xOnlyEcdh S i.ePriv i.rsPub with
      | ok es =>
          rw [NoiseXkInitiator.writeMessage1_run hes hn] at hwrite
          cases hwrite
          exact hi
      | error e =>
          rw [NoiseXkInitiator.writeMessage1, if_neg (Nat.not_lt.mpr hn), run_get_bind,
            hes] at hwrite
          cases hwrite
  | xx i =>
      rw [EStateM.run, SessionInitiator.writeMsg1,
        NoiseXxInitiator.writeMessage1_run i hn] at hwrite
      cases hwrite
      exact hi

end SessionInitiator

section Acks

variable {S : Suite} {build : Build} (si : Keypair S) {ei sr : Keypair S} (rs : HeldKey sr)
  {i : SessionInitiator}

theorem handleAck_unreadable (hi : i.Has build ei.secret) {ack : Bytes}
    (hack : unreadable S build ei.secret ack = true) :
    ∃ e j, (FspInitiatorSession.handleAck S ack).run (initiatorSession si rs .awaitingAck i none) =
        .error e (initiatorSession si rs .awaitingAck j none) ∧ i.SameButAnswer j := by
  rw [unreadable] at hack
  cases hparse : parseSessionAck ack with
  | error e =>
      refine ⟨e.map fun _ => .invalidMessage, i, ?_, .refl i⟩
      simp [FspInitiatorSession.handleAck, initiatorSession, hparse]
  | ok handshake =>
      rw [hparse] at hack
      obtain ⟨e, j, hread, hj⟩ := SessionInitiator.readMsg2_unreadable hi rs.pub hack
      refine ⟨.err e, j, ?_, hj⟩
      simp [FspInitiatorSession.handleAck, FspInitiatorSession.onInitiator, initiatorSession,
        hparse,
        hread]

def afterAcks (S : Suite) (acks : List Bytes) (fsp : FspInitiatorSession) : FspInitiatorSession :=
  acks.foldl (fun fsp ack => ((FspInitiatorSession.handleAck S ack).run fsp).state) fsp

theorem afterAcks_unreadable (hi : i.Has build ei.secret) {acks : List Bytes}
    (hacks : ∀ ack ∈ acks, unreadable S build ei.secret ack = true) :
    ∃ j, afterAcks S acks (initiatorSession si rs .awaitingAck i none) =
      initiatorSession si rs .awaitingAck j none ∧ i.SameButAnswer j := by
  induction acks generalizing i with
  | nil => exact ⟨i, rfl, .refl i⟩
  | cons ack acks ih =>
      obtain ⟨e, j, hrun, hj⟩ := handleAck_unreadable si rs hi (hacks ack List.mem_cons_self)
      obtain ⟨l, hl, hjl⟩ := ih (hj.has hi) fun a ha => hacks a (List.mem_cons_of_mem _ ha)
      refine ⟨l, ?_, hj.trans hjl⟩
      rw [afterAcks, List.foldl_cons, hrun]
      exact hl

end Acks

namespace RejectedAcks.Scenario

open Additive

def fresh (build : Build) : Except FspInitiatorError FspInitiatorSession :=
  FspInitiatorSession.new suite build (keypair 1).secret (keypair 2).secret (oddKey 3).pub

def opened (build : Build) : Option (Bytes × FspInitiatorSession) := do
  let fsp ← (fresh build).toOption
  ((FspInitiatorSession.buildSetup suite (Block.replicate 16 1) (Block.replicate 16 3) 512).call
    fsp).toOption

/-- The ack with which a responder with the static key of `static` answers the setup, and the
responder behind it. -/
def answered (build : Build) (static : UInt8) : Option (Bytes × FspSession) := do
  let (setup, _) ← opened build
  ((FspSession.handleSetup suite build (keypair static).secret (keypair 4).secret
    (Block.replicate 8 6) setup 512).call FspSession.new).toOption

/-- The ack with a byte changed behind its ephemeral key. -/
def garbled (build : Build) : Option Bytes := do
  let (ack, _) ← answered build 3
  let msg2 ← (parseSessionAck ack).toOption
  return ackOf (Block.replicate 16 3) (Block.replicate 16 1) (msg2.set 40 (msg2.getD 40 0 + 1))

/-- Acks that are cut, that carry a short msg2, and whose ephemeral key is not valid. -/
def unreadables : List Bytes :=
  [[], ackOf (Block.replicate 16 3) (Block.replicate 16 1) [2, 3],
    ackOf (Block.replicate 16 3) (Block.replicate 16 1) (List.replicate 57 0),
    ackOf (Block.replicate 16 3) (Block.replicate 16 1) (List.replicate 106 0)]

/-- The ack of the responder with the static key 3, behind another ack: the error with which the
other one is rejected, and whether the genuine one is accepted. -/
def behind (build : Build) (other : Bytes) : Option (Option (Fault FspInitiatorError) × Bool) := do
  let (_, fsp) ← opened build
  let (ack, _) ← answered build 3
  let first := (FspInitiatorSession.handleAck suite other).run fsp
  let e := match first with
    | .ok _ _ => none
    | .error e _ => some e
  return (e, ((FspInitiatorSession.handleAck suite ack).run first.state).isOk)

end RejectedAcks.Scenario

/-- For both builds: an initiator that waits for an ack receives any number of acks that do not
parse, or whose msg2 has another length or no valid ephemeral key.  Then it accepts the ack with
which the responder answers its setup, the responder accepts the msg3 on it, and the two sessions
hold each other's keys. -/
theorem genuine_ack_accepted {S : Suite} (hS : S.Lawful) (build : Build) (si ei sr er : Keypair S)
    (rs : HeldKey sr) (epochI epochR : Block 8) {srcAddr dstAddr : Block 16}
    {setupLen ackLen outLen : ℕ} {setup : Bytes} {fsp₀ fsp₁ : FspInitiatorSession}
    (hnew : FspInitiatorSession.new S build si.secret ei.secret rs.pub = .ok fsp₀)
    (hsetup : (FspInitiatorSession.buildSetup S srcAddr dstAddr setupLen).run fsp₀ = .ok setup fsp₁)
    {acks : List Bytes} (hacks : ∀ ack ∈ acks, unreadable S build ei.secret ack = true)
    {session : FspSession} (hidle : session.state = .idle) (hack : 175 ≤ ackLen)
    (hout : 106 ≤ outLen) :
    ∃ ack session₁ fsp₂ msg3 fsp₃ session₂,
      (FspSession.handleSetup S build sr.secret er.secret epochR setup ackLen).run session =
        .ok ack session₁ ∧
      (FspInitiatorSession.handleAck S ack).run (afterAcks S acks fsp₁) = .ok ⟨⟩ fsp₂ ∧
      (FspInitiatorSession.buildMsg3 S epochI outLen).run fsp₂ = .ok msg3 fsp₃ ∧
      (FspSession.handleMsg3 S build msg3).run session₁ = .ok ⟨⟩ session₂ ∧
      ∃ kSend kRecv, fsp₃.kSend = some kSend ∧ session₂.kRecv = some kSend ∧
        fsp₃.kRecv = some kRecv ∧ session₂.kSend = some kRecv := by
  obtain ⟨x⟩ := nonempty_exchange si ei sr er rs epochI epochR hS build
  have hfsp₀ := Except.ok.inj (hnew.symm.trans x.new_initiator)
  subst hfsp₀
  have hwrite := x.writeMsg1_run (show 33 ≤ 64 by decide)
  obtain ⟨hbuild, rfl⟩ := buildSetup_ok hwrite hsetup
  have hhas : x.opened.Has build ei.secret :=
    (SessionInitiator.has_of_new x.new_eq).writeMsg1 (by decide) hwrite
  obtain ⟨j, hafter, hj⟩ := afterAcks_unreadable si rs hhas hacks
  obtain ⟨j₂, hread, h₂⟩ := hj.readMsg2_run x.readMsg2_run
  obtain ⟨j₃, hmsg3, h₃⟩ := h₂.writeMsg3_run x.writeMsg3_run
  have hlen := x.msg3_length
  have hpacket : buildSessionMsg3 x.msg3 outLen = .ok x.msg3Packet := if_neg (by omega)
  have hanswer := x.handleSetup_run (parseSessionSetupFull_buildSessionSetup hbuild) hack hidle
  obtain ⟨t, hmsg3', ht⟩ := x.handleMsg3_run
    (s := { session with responder := some x.waiting, state := .awaitingMsg3 }) ⟨rfl, rfl⟩
  rw [hafter]
  refine ⟨_, _, _, _, _, t, hanswer, handleAck_of_readMsg2 (x.parse_ack srcAddr) hread,
    buildMsg3_of_writeMsg3 hmsg3 hpacket, hmsg3', (x.done.finalize S).1, (x.done.finalize S).2, ?_,
    ht.2.1, ?_, ht.2.2⟩
  · rw [h₃.finalize_eq]
    rfl
  · rw [h₃.finalize_eq]
    rfl

open RejectedAcks.Scenario Additive in
theorem genuine_ack_accepted_unreadables :
    ∃ ik ack ik' xx ack' xx',
      (opened .ik).map Prod.snd = some ik ∧
      (FspInitiatorSession.handleAck suite ack).run (afterAcks suite unreadables ik) = .ok ⟨⟩ ik' ∧
      (opened .xx).map Prod.snd = some xx ∧
      (FspInitiatorSession.handleAck suite ack').run (afterAcks suite unreadables xx) =
        .ok ⟨⟩ xx' := by
  have haccepted (build : Build)
      (h : ∀ ack ∈ unreadables, unreadable suite build (keypair 2).secret ack = true) :
      ∃ fsp ack fsp', (opened build).map Prod.snd = some fsp ∧
        (FspInitiatorSession.handleAck suite ack).run (afterAcks suite unreadables fsp) =
          .ok ⟨⟩ fsp' := by
    obtain ⟨x⟩ := nonempty_exchange (keypair 1) (keypair 2) (keypair 3) (keypair 4) (oddKey 3)
      (Block.replicate 8 5) (Block.replicate 8 6) suite_lawful build
    have hsetup := x.buildSetup_run
      (buildSessionSetup_eq_ok (Block.replicate 16 1) (Block.replicate 16 3) (keypair 2).pub)
    obtain ⟨ack, -, fsp', -, -, -, -, hrun, -⟩ :=
      genuine_ack_accepted suite_lawful build (keypair 1)
      (keypair 2) (keypair 3) (keypair 4) (oddKey 3) (Block.replicate 8 5) (Block.replicate 8 6)
      x.new_initiator hsetup h (show FspSession.new.state = .idle from rfl) (le_refl 175)
      (le_refl 106)
    refine ⟨_, ack, fsp', ?_, hrun⟩
    rw [opened, fresh, x.new_initiator]
    dsimp only [Except.toOption, Option.bind_eq_bind, Option.bind_some]
    rw [call_eq_ok hsetup]
    rfl
  obtain ⟨ik, ack, ik', hik, hik'⟩ := haccepted .ik (by decide +kernel)
  obtain ⟨xx, ack', xx', hxx, hxx'⟩ := haccepted .xx (by decide +kernel)
  exact ⟨ik, ack, ik', xx, ack', xx', hik, hik', hxx, hxx'⟩

open RejectedAcks.Scenario in
/-- An ack that is changed behind its ephemeral key is rejected, and with it the genuine ack that is
accepted behind an unreadable one.  On the XX wire the same happens behind the ack of a responder
with another static key. -/
theorem genuine_ack_rejected :
    (behind .ik [] = some (some (.err .invalidMessage), true) ∧
      (garbled .ik).bind (behind .ik) = some (some (.err (.noise .decryptionFailed)), false)) ∧
    behind .xx [] = some (some (.err .invalidMessage), true) ∧
      (garbled .xx).bind (behind .xx) = some (some (.err (.noise .decryptionFailed)), false) ∧
      (answered .xx 9).bind (fun r => behind .xx r.1) =
        some (some (.err .peerKeyMismatch), false) := by
  decide +kernel

end Session
end Microfips

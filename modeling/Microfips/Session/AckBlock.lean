import Microfips.Noise.Messages
import Microfips.Session.Agreement

/-!
# The negotiation block of an ack

On the XX wire a responder may append a sealed block to its msg2.  It counts the block as one more
use of the key, and reads msg3 at the nonce behind it.  `handle_ack` opens the block into a buffer
of `NEGOTIATION_MAX_SIZE` bytes and discards the result, also when the block does not open; then its
own nonce stays where it was, and the msg3 that it builds is sealed one nonce too early.
-/

namespace Microfips
namespace Session

open Noise Wire EStateM

/-- A responder that has answered the first message of `ei` and has appended `plain`, sealed. -/
structure BlockAnswer (S : Suite) (ei sr er : Keypair S) (epochR : Block 8) (plain : Bytes) where
  fresh : NoiseXxResponder
  opened : NoiseXxResponder
  answered : NoiseXxResponder
  waiting : NoiseXxResponder
  msg2 : Bytes
  block : Bytes
  msg2Room : ℕ
  blockRoom : ℕ
  new_eq : NoiseXxResponder.new S sr.secret = .ok fresh
  readMessage1_run : (NoiseXxResponder.readMessage1 S ei.pub.bytes).run fresh = .ok ⟨⟩ opened
  writeMessage2_run :
    (NoiseXxResponder.writeMessage2 S er.secret epochR msg2Room).run opened = .ok msg2 answered
  encryptPayload_run :
    (NoiseXxResponder.encryptPayload S plain blockRoom).run answered = .ok block waiting

variable {S : Suite} {si ei sr er : Keypair S} {rs : HeldKey sr} {epochI epochR : Block 8}
  {plain : Bytes}

theorem exists_opened_xx {srcAddr dstAddr : Block 16} {n : ℕ} {setup : Bytes}
    {fsp₀ fsp₁ : FspInitiatorSession}
    (hnew : FspInitiatorSession.new S .xx si.secret ei.secret rs.pub = .ok fsp₀)
    (hsetup : (FspInitiatorSession.buildSetup S srcAddr dstAddr n).run fsp₀ = .ok setup fsp₁) :
    ∃ i₀ i₁, NoiseXxInitiator.new S ei.secret si.secret = .ok (i₀, ei.pub) ∧
      (NoiseXxInitiator.writeMessage1 S 64).run i₀ = .ok ei.pub.bytes i₁ ∧
      fsp₁ = initiatorSession si rs .awaitingAck (.xx i₁) none := by
  obtain ⟨i₀, i₁, hi₀, hwrites⟩ := exists_xxMsg1 ei si
  have hi₁ := hwrites 64 (by decide)
  refine ⟨i₀, i₁, hi₀, hi₁, ?_⟩
  have hwrite : (SessionInitiator.writeMsg1 S 64).run (.xx i₀) = .ok ei.pub.bytes (.xx i₁) := by
    rw [EStateM.run, SessionInitiator.writeMsg1, hi₁]
    rfl
  have hfsp₀ : fsp₀ = initiatorSession si rs .idle (.xx i₀) none := by
    rw [FspInitiatorSession.new, SessionInitiator.new, hi₀,
      ecdhPubkey_eq_ok si.publicKey_secret] at hnew
    exact (Except.ok.inj hnew).symm
  subst hfsp₀
  exact (buildSetup_ok hwrite hsetup).2

namespace BlockAnswer

variable (a : BlockAnswer S ei sr er epochR plain)

theorem msg2Room_ge : 106 ≤ a.msg2Room := by
  by_contra hroom
  have hrun := a.writeMessage2_run
  have hshort : a.msg2Room < xxHandshakeMsg2Size := Nat.lt_of_not_le hroom
  rw [NoiseXxResponder.writeMessage2, if_pos hshort] at hrun
  cases hrun

theorem blockRoom_ge : plain.length + 16 ≤ a.blockRoom := by
  by_contra hroom
  obtain ⟨sym, hsym, -⟩ := exists_of_zoom a.encryptPayload_run
  rw [SymmetricState.encryptAndHash, run_get_bind] at hsym
  obtain ⟨k, s₁, -, hrest⟩ := exists_of_run_bind hsym
  obtain ⟨c, s₂, hseal, -⟩ := exists_of_run_bind hrest
  have henc := (ofExcept_run_ok hseal).1
  have hshort : a.blockRoom < plain.length + tagSize := Nat.lt_of_not_le hroom
  rw [aeadEncrypt, if_pos hshort] at henc
  cases henc

/-- The initiator that reads the answer with its block, and the responder that reads the msg3 on
it. -/
theorem exists_exchange (hS : S.Lawful) {i₀ i₁ : NoiseXxInitiator}
    (hnew : NoiseXxInitiator.new S ei.secret si.secret = .ok (i₀, ei.pub))
    (hwrite : (NoiseXxInitiator.writeMessage1 S 64).run i₀ = .ok ei.pub.bytes i₁)
    (hfits : plain.length ≤ negotiationMaxSize) (epochI : Block 8) :
    ∃ neg i₂ i₃ m₃ i₄ c₃ i₅ r, encodePayload negotiationMaxSize 0 0 0 = some neg ∧
      (NoiseXxInitiator.readMessage2 S a.msg2).run i₁ = .ok (sr.pub, epochR) i₂ ∧
      (NoiseXxInitiator.decryptPayload S a.block negotiationMaxSize).run i₂ = .ok plain i₃ ∧
      i₃.sym = a.waiting.sym ∧
      (NoiseXxInitiator.writeMessage3 S si.pub epochI
        (xxHandshakeMsg3Size + negotiationMaxSize + tagSize)).run i₃ = .ok m₃ i₄ ∧
      (NoiseXxInitiator.encryptPayload S neg
        (xxHandshakeMsg3Size + negotiationMaxSize + tagSize - m₃.length)).run i₄ = .ok c₃ i₅ ∧
      a.msg2.length = xxHandshakeMsg2Size ∧ 0 < a.block.length ∧
      m₃.length = xxHandshakeMsg3Size ∧ c₃.length = 26 ∧
      (NoiseXxResponder.readMessage3 S m₃).run a.waiting = .ok (si.pub, epochI) r := by
  obtain ⟨neg, hneg⟩ : ∃ neg, encodePayload negotiationMaxSize 0 0 0 = some neg := ⟨_, rfl⟩
  have hneglen : neg.length = 10 := encodePayload_length hneg
  have hroom : neg.length + 16 ≤ xxHandshakeMsg3Size + negotiationMaxSize + tagSize - 73 := by
    rw [hneglen]
    decide
  obtain ⟨r₀, r₁, m₂, r₂, c₂, r₃, hr₀, hr₁, hr₂, hlen₂, hr₃, hc₂, i₂, i₃, m₃, i₄, c₃, i₅, hi₂, hi₃,
      hsym, hi₄, hlen₃, hi₅, hc₃, r₄, r₅, hr₄, -, -⟩ :=
    exists_xxMsg2 hS er sr epochI epochR (show 33 ≤ 64 by decide) hnew hwrite a.msg2Room_ge
      (show 73 ≤ xxHandshakeMsg3Size + negotiationMaxSize + tagSize by decide) a.blockRoom_ge hroom
      hfits (show neg.length ≤ negotiationMaxSize by rw [hneglen]; decide)
  -- the responder's calls are functions of what came before
  cases Except.ok.inj (a.new_eq.symm.trans hr₀)
  obtain ⟨-, rfl⟩ := Result.ok.inj (hr₁.symm.trans a.readMessage1_run)
  obtain ⟨rfl, rfl⟩ := Result.ok.inj (hr₂.symm.trans a.writeMessage2_run)
  obtain ⟨rfl, rfl⟩ := Result.ok.inj (hr₃.symm.trans a.encryptPayload_run)
  refine ⟨neg, i₂, i₃, m₃, i₄, c₃, i₅, r₄, hneg, hi₂, hi₃, hsym, hi₄, ?_, hlen₂, ?_, hlen₃, ?_, hr₄⟩
  · rw [hlen₃]
    exact hi₅
  · rw [hc₂]
    exact Nat.succ_pos _
  · rw [hc₃, hneglen]

end BlockAnswer

namespace BlockAnswer
namespace Scenario

open Additive SymmetricState

def written : Result (Fault NoiseError) NoiseXxResponder Bytes → Bytes
  | .ok b _ => b
  | .error _ _ => []

def opened : NoiseXxResponder :=
  ((NoiseXxResponder.readMessage1 suite (keypair 2).pub.bytes).run
    (xxResponder (keypair 3) (init suite protocolNameXx) none none none)).state

def msg2 : Result (Fault NoiseError) NoiseXxResponder Bytes :=
  (NoiseXxResponder.writeMessage2 suite (keypair 4).secret (Block.replicate 8 6) 106).run opened

def answer (plain : Bytes) :
    BlockAnswer suite (keypair 2) (keypair 3) (keypair 4) (Block.replicate 8 6) plain where
  fresh := xxResponder (keypair 3) (init suite protocolNameXx) none none none
  opened := opened
  answered := msg2.state
  waiting := { msg2.state with sym := afterSealed suite plain msg2.state.sym }
  msg2 := written msg2
  block := sealed suite plain msg2.state.sym
  msg2Room := 106
  blockRoom := plain.length + 16
  new_eq := rfl
  readMessage1_run := by decide +kernel
  writeMessage2_run := by decide +kernel
  encryptPayload_run := NoiseXxResponder.encryptPayload_run (by decide +kernel) le_rfl

def ackWith (plain received : Bytes) : Bytes :=
  ackOf (Block.replicate 16 3) (Block.replicate 16 1) ((answer plain).msg2 ++ received)

def fresh : FspInitiatorSession :=
  initiatorSession (keypair 1) (oddKey 3) .idle
    (.xx (xxInitiator (keypair 1) (keypair 2) (init suite protocolNameXx) none none)) none

def waiting : FspInitiatorSession :=
  ((FspInitiatorSession.buildSetup suite (Block.replicate 16 1) (Block.replicate 16 3) 512).run
    fresh).state

/-- The initiator handles the ack and builds msg3: whether the responder's `read_message3` accepts
it. -/
def accepted (plain received : Bytes) : Option Bool := do
  let (_, fsp) ← ((FspInitiatorSession.handleAck suite (ackWith plain received)).call
    waiting).toOption
  let (packet, _) ← ((FspInitiatorSession.buildMsg3 suite (Block.replicate 8 5) 512).call
    fsp).toOption
  let msg3 ← (parseSessionMsg3 packet).toOption
  return ((NoiseXxResponder.readMessage3 suite (splitMsg3Noise msg3).1).run
    (answer plain).waiting).isOk

end Scenario
end BlockAnswer

/-- In the XX build, an initiator receives the ack of its pinned responder.  The responder has
appended a sealed block of at most `NEGOTIATION_MAX_SIZE` bytes, and the block arrives as it was
sent.  Behind `handle_ack` the nonces of the two sides agree, and the responder's `read_message3`
accepts the msg3 that is built next. -/
theorem msg3_accepted_of_block_unchanged {S : Suite} (hS : S.Lawful) {si ei sr er : Keypair S}
    {rs : HeldKey sr} (epochI epochR : Block 8) {plain : Bytes}
    (a : BlockAnswer S ei sr er epochR plain) {srcAddr dstAddr : Block 16} {setupLen outLen : ℕ}
    {setup ack received : Bytes} {fsp₀ fsp₁ fsp₂ : FspInitiatorSession}
    (hnew : FspInitiatorSession.new S .xx si.secret ei.secret rs.pub = .ok fsp₀)
    (hsetup : (FspInitiatorSession.buildSetup S srcAddr dstAddr setupLen).run fsp₀ = .ok setup fsp₁)
    (hack : parseSessionAck ack = .ok (a.msg2 ++ received)) (hunchanged : received = a.block)
    (hfits : plain.length ≤ negotiationMaxSize)
    (hok : (FspInitiatorSession.handleAck S ack).run fsp₁ = .ok ⟨⟩ fsp₂) (hroom : 106 ≤ outLen) :
    ∃ i packet fsp₃ msg3 r, fsp₂.initiator = some (.xx i) ∧ i.sym.n = a.waiting.sym.n ∧
      (FspInitiatorSession.buildMsg3 S epochI outLen).run fsp₂ = .ok packet fsp₃ ∧
      parseSessionMsg3 packet = .ok msg3 ∧
      (NoiseXxResponder.readMessage3 S (splitMsg3Noise msg3).1).run a.waiting =
        .ok (si.pub, epochI) r := by
  subst hunchanged
  obtain ⟨i₀, i₁, hi₀, hi₁, rfl⟩ := exists_opened_xx hnew hsetup
  obtain ⟨neg, i₂, i₃, m₃, i₄, c₃, i₅, r, hneg, hi₂, hi₃, hsym, hi₄, hi₅, hlen₂, hblock, hlen₃, hc₃,
    hr⟩ := a.exists_exchange hS hi₀ hi₁ hfits epochI
  have hsplit₂ : splitMsg2Noise (a.msg2 ++ a.block) = (a.msg2, some a.block) :=
    splitHandshakeNoise_append hlen₂ hblock
  have hsplit₃ : splitMsg3Noise (m₃ ++ c₃) = (m₃, some c₃) :=
    splitHandshakeNoise_append hlen₃ (by omega)
  have hpin : sr.pub.bytes.drop 1 = rs.pub.bytes.drop 1 := rs.sameX.symm
  have hread : (SessionInitiator.readMsg2 S rs.pub (a.msg2 ++ a.block)).run (.xx i₁) =
      .ok ⟨⟩ (.xx i₃) := by
    rw [EStateM.run, SessionInitiator.readMsg2]
    simp only [hsplit₂, hi₂, hpin, ignore_run hi₃, ne_eq, not_true_eq_false, if_false]
  have hwrite : (SessionInitiator.writeMsg3 S si.pub epochI).run (.xx i₃) =
      .ok (m₃ ++ c₃) (.xx i₅) := by
    rw [EStateM.run, SessionInitiator.writeMsg3]
    simp only [hi₄, hneg, hi₅]
  have hlen : (m₃ ++ c₃).length = 99 := by
    rw [List.length_append, hlen₃, hc₃]
    rfl
  have hfsp₂ := (Result.ok.inj ((handleAck_of_readMsg2 hack hread).symm.trans hok)).2
  subst hfsp₂
  obtain ⟨packet, hpacket⟩ : ∃ packet, buildSessionMsg3 (m₃ ++ c₃) outLen = .ok packet :=
    ⟨_, if_neg (by omega)⟩
  refine ⟨i₃, packet, _, m₃ ++ c₃, r, rfl, by rw [hsym], buildMsg3_of_writeMsg3 hwrite hpacket,
    parseSessionMsg3_buildSessionMsg3 (by omega) hpacket, ?_⟩
  rw [hsplit₃]
  exact hr

open BlockAnswer.Scenario Additive in
/-- A block of ten bytes. -/
theorem msg3_accepted_of_block_unchanged_ten :
    ∃ fsp packet fsp' msg3 r,
      (FspInitiatorSession.handleAck suite
        (ackWith (List.replicate 10 0) (answer (List.replicate 10 0)).block)).run waiting =
          .ok ⟨⟩ fsp ∧
      (FspInitiatorSession.buildMsg3 suite (Block.replicate 8 5) 512).run fsp = .ok packet fsp' ∧
      parseSessionMsg3 packet = .ok msg3 ∧
      (NoiseXxResponder.readMessage3 suite (splitMsg3Noise msg3).1).run
        (answer (List.replicate 10 0)).waiting = .ok ((keypair 1).pub, Block.replicate 8 5) r := by
  have hnew : FspInitiatorSession.new suite .xx (keypair 1).secret (keypair 2).secret
      (oddKey 3).pub = .ok fresh := rfl
  have hsetup : (FspInitiatorSession.buildSetup suite (Block.replicate 16 1) (Block.replicate 16 3)
      512).run fresh =
        .ok (setupOf (Block.replicate 16 1) (Block.replicate 16 3) (keypair 2).pub) waiting := by
    decide +kernel
  have hparse : parseSessionAck
      (ackWith (List.replicate 10 0) (answer (List.replicate 10 0)).block) =
      .ok ((answer (List.replicate 10 0)).msg2 ++ (answer (List.replicate 10 0)).block) :=
    parseSessionAck_buildSessionAck (buildSessionAck_eq_ok _ _ (by decide +kernel) le_rfl)
  have hok : ((FspInitiatorSession.handleAck suite
      (ackWith (List.replicate 10 0) (answer (List.replicate 10 0)).block)).run waiting).isOk =
        true := by
    decide +kernel
  obtain ⟨-, packet, fsp', msg3, r, -, -, hbuild, hmsg3, hr⟩ :=
    msg3_accepted_of_block_unchanged suite_lawful (Block.replicate 8 5) (Block.replicate 8 6)
      (answer (List.replicate 10 0)) hnew hsetup hparse rfl (by decide)
      (Result.eq_ok_of_isOk hok) (show 106 ≤ 512 by decide)
  exact ⟨_, packet, fsp', msg3, r, Result.eq_ok_of_isOk hok, hbuild, hmsg3, hr⟩

open BlockAnswer.Scenario in
/-- The responder accepts the msg3 behind a block of ten bytes.  It rejects it when one byte of the
block has changed, and behind a block of 65 bytes that arrives as it was sent; `handle_ack` returns
in either case. -/
theorem msg3_rejected_behind_block :
    accepted (List.replicate 10 0) (answer (List.replicate 10 0)).block = some true ∧
      accepted (List.replicate 10 0) ((answer (List.replicate 10 0)).block.set 0 1) = some false ∧
      accepted (List.replicate 65 0) (answer (List.replicate 65 0)).block = some false := by
  decide +kernel

end Session
end Microfips

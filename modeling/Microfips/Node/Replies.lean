import Microfips.Node.Ledger
import Microfips.Node.Sealing

/-!
# Replies on the wire

A reply of the handler, or of the node itself to a link message, is sealed under the current epoch
and sent.  The functions that do it assemble the frame in a buffer of 256 bytes, so a reply of up
to 219 bytes arrives as it was given; a longer one fits the response buffer it was written to, but
its frame does not fit, and it is dropped once its counter is taken.
-/

namespace Microfips
namespace Node

open Noise Wire EStateM

variable {H M : Type} (C : Config H M)

/-- An established frame for the peer of `slot` under its next counter, with this message: whoever
holds the send key of the slot and admits the counter reads the type and the body from it. -/
structure Carries (slot : EpochSlot) (frame : Bytes) (msgType : UInt8) (body : Bytes) : Prop where
  header : ∃ enc, EncryptedHeader.parse C.build frame = some enc ∧
    enc.receiverIdx = slot.them ∧ enc.counter = slot.sendCtr
  opens : ∀ (w : ℕ) (replay : ReplayWindow), replay.check w slot.sendCtr = true →
    ∃ opened replay',
      decryptEstablishedFrame C.suite C.build w slot.ks frame replay =
        .ok (some opened, replay') ∧
      opened.counter = slot.sendCtr ∧ opened.msgType = msgType ∧ opened.payload = body

def FrameAction.reply? : FrameAction → Option (UInt8 × Bytes)
  | sendDatagram data => some (msgSessionDatagram, data)
  | sendLinkMessage msgType body => some (msgType, body)
  | _ => none

/-- The longest reply whose frame fits the buffer of the sending functions. -/
def maxReply : ℕ := 219

namespace Steady

/-- Between `s` and `t` one counter was taken and one frame sealed and sent, and the frame carries
this message. -/
def Transmits (s t : Steady H M) (msgType : UInt8) (body : Bytes) : Prop :=
  ∃ frame, t.trace = .frame (.sent frame) :: .key (.sealed s.cur.ks s.cur.sendCtr) ::
      .key (.took s.cur.ks s.cur.sendCtr) :: s.trace ∧
    Carries C s.cur frame msgType body

variable {C}

variable {s : Steady H M}

theorem sendFrame_sent (hsend : ∀ n, s.calls ≤ n → C.world.sendOk n = true) (payload : Bytes) :
    ∃ n, (sendFrame C payload).run s =
      .ok true { s with calls := n, trace := .frame (.sent payload) :: s.trace } := by
  have hparts : ∃ n, (sendParts C payload).run s = .ok true { s with calls := n } := by
    rw [sendParts]
    have hfirst : ∀ data, (transportSend C data).run s = .ok true { s with calls := s.calls + 1 } :=
      fun data => by
        rw [← hsend s.calls (Nat.le_refl _)]
        rfl
    split
    · exact ⟨_, hfirst payload⟩
    · rw [EStateM.run_bind_ok (hfirst _)]
      refine ⟨s.calls + 2, ?_⟩
      rw [if_pos rfl, ← hsend (s.calls + 1) (by omega)]
      rfl
  obtain ⟨n, hrun⟩ := hparts
  refine ⟨n, ?_⟩
  rw [sendFrame, EStateM.run_bind_ok hrun]
  rfl

theorem sealAndSend_sent (hS : C.suite.Lawful) (hsend : ∀ n, s.calls ≤ n → C.world.sendOk n = true)
    (msgType : UInt8) {body : Bytes} (hbody : body.length ≤ maxReply) {slot : EpochSlot}
    (hks : s.cur.ks = slot.ks) (hthem : s.cur.them = slot.them) :
    ∃ t frame, (sealAndSend C slot.sendCtr (msgType :: body) 512).run s = .ok true t ∧
      t.trace = .frame (.sent frame) :: .key (.sealed slot.ks slot.sendCtr) :: s.trace ∧
      Carries C slot frame msgType body := by
  obtain ⟨ts, hts⟩ : ∃ ts, UInt32.ofNat (asMillis (C.world.clock s.calls)) = ts := ⟨_, rfl⟩
  obtain ⟨flags, hflags⟩ : ∃ flags, (if s.cur.kBit then flagKeyEpoch else 0x00) = flags := ⟨_, rfl⟩
  have hmax : maxReply = 219 := rfl
  have hinner : prependInnerHeader ts (msgType :: body) 512 =
      some (Bytes.ofNat 4 ts.toNat ++ msgType :: body) := by
    rw [prependInnerHeader, if_neg (by simp; omega)]
  have hlen : establishedHeaderSize + ((Bytes.ofNat 4 ts.toNat ++ msgType :: body).length +
      tagSize) ≤ 256 := by
    simp [establishedHeaderSize, tagSize]
    omega
  have hframe :=
    encryptAndAssemble_eq_some C.suite C.build slot.them slot.sendCtr flags slot.ks hlen
  obtain ⟨frame, hdef⟩ : ∃ frame, buildEstablishedHeader C.build slot.them slot.sendCtr flags
      (Bytes.ofNat 4 ts.toNat ++ msgType :: body).length ++
      sealBytes C.suite slot.ks slot.sendCtr (buildEstablishedHeader C.build slot.them slot.sendCtr
        flags (Bytes.ofNat 4 ts.toNat ++ msgType :: body).length)
        (Bytes.ofNat 4 ts.toNat ++ msgType :: body) = frame := ⟨_, rfl⟩
  have hfits : body.length + innerHeaderSize ≤ maxFrameSize := by
    simp only [innerHeaderSize, maxFrameSize]
    omega
  have hcarries : Carries C slot frame msgType body := by
    rw [← hdef]
    refine ⟨⟨_, parse_buildEstablishedHeader_append .., rfl, rfl⟩, fun w replay hcheck => ?_⟩
    obtain ⟨replay', -, hopen⟩ :=
      decryptEstablishedFrame_seal hS C.build slot.them flags ts msgType hfits slot.ks hcheck
    exact ⟨_, replay', hopen, rfl, rfl, rfl⟩
  rw [hdef] at hframe
  obtain ⟨n, hsent⟩ := sendFrame_sent (C := C) (s := { s with
    calls := s.calls + 1
    trace := .key (.sealed slot.ks slot.sendCtr) :: s.trace })
    (fun n hn => hsend n (Nat.le_of_succ_le hn)) frame
  rw [sealAndSend, EStateM.run_bind_ok
    (show (now C).run s = .ok (C.world.clock s.calls) { s with calls := s.calls + 1 } from rfl)]
  simp only [hts, hinner]
  rw [EStateM.run_get_bind]
  simp only [hflags, hks, hthem, hframe]
  rw [run_emit_bind,
    EStateM.run_bind_ok hsent, recordSent]
  split
  · exact ⟨_, frame, rfl, rfl, hcarries⟩
  · exact ⟨_, frame, rfl, rfl, hcarries⟩

theorem sendLinkMessage_transmits (hS : C.suite.Lawful)
    (hsend : ∀ n, s.calls ≤ n → C.world.sendOk n = true) (msgType : UInt8) {body : Bytes}
    (hbody : body.length ≤ maxReply) :
    ∃ t, (sendLinkMessage C msgType body).run s = .ok ⟨⟩ t ∧ Transmits C s t msgType body := by
  have hks : { s.cur with sendCtr := s.cur.sendCtr + 1 }.ks = s.cur.ks := rfl
  obtain ⟨t, frame, hrun, htrace, hcarries⟩ := sealAndSend_sent hS (s := { s with
      cur := { s.cur with sendCtr := s.cur.sendCtr + 1 }
      trace := .key (.took s.cur.ks s.cur.sendCtr) :: s.trace })
    hsend msgType hbody hks rfl
  refine ⟨{ t with policy := t.policy.recordDataFrame }, ?_, frame, htrace, hcarries⟩
  rw [sendLinkMessage, EStateM.run_bind_ok (show takeCounter.run s = .ok _ _ from rfl),
    if_neg (by simp only [respBufSize, maxReply] at hbody ⊢; omega), EStateM.run_bind_ok hrun]
  rfl

end Steady

theorem dispatchEcho_eq (now : ℕ) {sendTs sequence payload : Bytes} (hts : sendTs.length = 8)
    (hseq : sequence.length = 4) (hpayload : payload.length ≤ 256) :
    dispatchEcho now (sendTs ++ sequence ++ payload) = .sendLinkMessage msgEchoResponse
      (sendTs ++ Bytes.ofNat 8 now ++ sequence ++ payload) := by
  have hparse : parseEchoRequest (sendTs ++ sequence ++ payload) =
      some (sendTs, sequence, payload) := by
    rw [parseEchoRequest, if_neg (by simp; omega), List.append_assoc, List.take_left' hts,
      Bytes.slice, List.drop_left' hts, List.take_left' hseq, ← List.append_assoc,
      List.drop_left' (by simp; omega)]
  rw [dispatchEcho, hparse]
  simp only [buildEchoResponse]
  rw [if_neg (by simp only [respBufSize]; omega)]

namespace Scenario

def echoRequest (n : ℕ) : Bytes :=
  List.replicate 8 1 ++ List.replicate 4 2 ++ List.replicate n 3

end Scenario

namespace Steady

end Steady
end Node
end Microfips

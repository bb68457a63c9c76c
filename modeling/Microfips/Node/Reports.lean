import Microfips.Mmp.Shift
import Microfips.Node.Replies

/-!
# Reports on the link

`send_link_message` puts the message type before the body it is given.  The reports of the IK wire
are encoded with their type byte in front, so that a report leaves the node behind two type bytes
and is opened by the peer with one of them still there.  On the XX wire it arrives as it is sent.
-/

namespace Microfips
namespace Node

open Noise Wire EStateM Mmp

variable {H M : Type} {C : Config H M}

namespace Steady

/-- A link message that fits is sealed and sent, and what it opens to has the property `P` of what
was given. -/
theorem sendLinkMessage_opens (hS : C.suite.Lawful) {s : Steady H M}
    (hsend : ∀ n, s.calls ≤ n → C.world.sendOk n = true) (msgType : UInt8) {body : Bytes}
    (hbody : body.length ≤ maxReply) (P : Bytes → Prop) (hP : P body) :
    ∃ t frame, (sendLinkMessage C msgType body).run s = .ok ⟨⟩ t ∧
      .frame (.sent frame) ∈ t.trace ∧
      ∀ w (replay : ReplayWindow), replay.check w s.cur.sendCtr = true →
        ∃ opened replay', decryptEstablishedFrame C.suite C.build w s.cur.ks frame replay =
            .ok (some opened, replay') ∧
          opened.msgType = msgType ∧ P opened.payload := by
  obtain ⟨t, hrun, frame, htrace, hcarries⟩ := sendLinkMessage_transmits hS hsend msgType hbody
  refine ⟨t, frame, hrun, by rw [htrace]; exact List.mem_cons_self, fun w replay hcheck => ?_⟩
  obtain ⟨opened, replay', hopen, -, htype, hpayload⟩ := hcarries.opens w replay hcheck
  exact ⟨opened, replay', hopen, htype, hpayload ▸ hP⟩

end Steady

namespace Scenario

def openedWith (kr : Block 32) (s : Steady PUnit PUnit) : Option (UInt8 × Bytes) :=
  match s.trace with
  | .frame (.sent frame) :: _ =>
      match decryptEstablishedFrame Additive.suite .ik 64 kr frame ReplayWindow.new with
      | .ok (some opened, _) => some (opened.msgType, opened.payload)
      | _ => none
  | _ => none

def afterSenderReport : Steady PUnit PUnit :=
  ((Steady.sendLinkMessage alice msgSenderReport
    ({ SenderReport.zero with cumulativePacketsSent := 1 }.encode .ik)).run aliceStart).state

def afterReceiverReport : Steady PUnit PUnit :=
  ((Steady.sendLinkMessage alice msgReceiverReport
    ({ ReceiverReport.zero with cumulativePacketsRecv := 1 }.encode .ik)).run aliceStart).state

end Scenario

namespace Steady

/-- In the IK build a report that is sent as a link message is opened by the peer, and what it
opens decodes to the same report exactly if all its fields are zero. -/
theorem report_decodes_iff_zero (hS : C.suite.Lawful) (hik : C.build = .ik) (s : Steady H M)
    (hsend : ∀ n, s.calls ≤ n → C.world.sendOk n = true) :
    (∀ r : SenderReport, ∃ t frame,
      (sendLinkMessage C msgSenderReport (r.encode C.build)).run s = .ok ⟨⟩ t ∧
      .frame (.sent frame) ∈ t.trace ∧
      ∀ w (replay : ReplayWindow), replay.check w s.cur.sendCtr = true →
        ∃ opened replay', decryptEstablishedFrame C.suite C.build w s.cur.ks frame replay =
            .ok (some opened, replay') ∧ opened.msgType = msgSenderReport ∧
          (SenderReport.decode opened.payload C.build = some r ↔ r = .zero)) ∧
    ∀ r : ReceiverReport, ∃ t frame,
      (sendLinkMessage C msgReceiverReport (r.encode C.build)).run s = .ok ⟨⟩ t ∧
      .frame (.sent frame) ∈ t.trace ∧
      ∀ w (replay : ReplayWindow), replay.check w s.cur.sendCtr = true →
        ∃ opened replay', decryptEstablishedFrame C.suite C.build w s.cur.ks frame replay =
            .ok (some opened, replay') ∧ opened.msgType = msgReceiverReport ∧
          (ReceiverReport.decode opened.payload C.build = some r ↔ r = .zero) := by
  constructor
  · intro r
    refine sendLinkMessage_opens hS hsend msgSenderReport ?_
      (fun payload => SenderReport.decode payload C.build = some r ↔ r = .zero) ?_
    · exact (r.encode_length C.build).trans (by decide)
    · rw [hik]
      exact r.decode_encode_ik_eq_some_iff
  · intro r
    refine sendLinkMessage_opens hS hsend msgReceiverReport ?_
      (fun payload => ReceiverReport.decode payload C.build = some r ↔ r = .zero) ?_
    · exact (r.encode_length C.build).trans (by decide)
    · rw [hik]
      exact r.decode_encode_ik_eq_some_iff

open Scenario in
theorem report_decodes_iff_zero_alice :
    ∃ t frame, (sendLinkMessage alice msgSenderReport
      (SenderReport.zero.encode .ik)).run aliceStart =
        .ok ⟨⟩ t ∧ .frame (.sent frame) ∈ t.trace ∧
      ∃ opened replay', decryptEstablishedFrame Additive.suite .ik 64 aliceStart.cur.ks frame
          ReplayWindow.new = .ok (some opened, replay') ∧
        SenderReport.decode opened.payload .ik = some .zero := by
  obtain ⟨t, frame, hrun, hsent, hopens⟩ := (report_decodes_iff_zero (C := alice)
    Additive.suite_lawful rfl aliceStart fun _ _ => rfl).1 .zero
  obtain ⟨opened, replay', hopen, -, hdecode⟩ := hopens 64 ReplayWindow.new (by decide +kernel)
  exact ⟨t, frame, hrun, hsent, opened, replay', hopen, hdecode.mpr rfl⟩

open Scenario in
/-- The peer reads 256 frames where the report says one. -/
theorem report_decodes_shifted :
    (openedWith bobStart.cur.kr afterSenderReport).map
        (fun message => (message.1, SenderReport.decode message.2 .ik)) =
      some (msgSenderReport, some { SenderReport.zero with cumulativePacketsSent := 256 }) ∧
    (openedWith bobStart.cur.kr afterReceiverReport).map
        (fun message => (message.1, ReceiverReport.decode message.2 .ik)) =
      some (msgReceiverReport, some { ReceiverReport.zero with cumulativePacketsRecv := 256 }) := by
  decide +kernel

variable (C) in
/-- A link message is sent, and whoever admits its counter opens it to a body with `P`. -/
def Delivers (s : Steady H M) (msgType : UInt8) (body : Bytes) (P : Bytes → Prop) : Prop :=
  ∃ t frame, (sendLinkMessage C msgType body).run s = .ok ⟨⟩ t ∧ .frame (.sent frame) ∈ t.trace ∧
    ∀ w (replay : ReplayWindow), replay.check w s.cur.sendCtr = true →
      ∃ opened replay', decryptEstablishedFrame C.suite C.build w s.cur.ks frame replay =
          .ok (some opened, replay') ∧ opened.msgType = msgType ∧ P opened.payload

theorem delivers (hS : C.suite.Lawful) {s : Steady H M}
    (hsend : ∀ n, s.calls ≤ n → C.world.sendOk n = true) (msgType : UInt8) {body : Bytes}
    (hbody : body.length ≤ maxReply) {P : Bytes → Prop} (hP : P body) :
    Delivers C s msgType body P :=
  sendLinkMessage_opens hS hsend msgType hbody P hP

/-- In the XX build a report that is sent as a link message arrives with all the fields that the
slim form has, and the others zero. -/
theorem report_decodes_slim (hS : C.suite.Lawful) (hxx : C.build = .xx) (s : Steady H M)
    (hsend : ∀ n, s.calls ≤ n → C.world.sendOk n = true) :
    (∀ r : SenderReport, Delivers C s msgSenderReport (r.encode C.build)
      fun payload => SenderReport.decode payload C.build = some r.slim) ∧
    ∀ r : ReceiverReport, -2 ^ 31 ≤ r.owdTrend ∧ r.owdTrend < 2 ^ 31 →
      Delivers C s msgReceiverReport (r.encode C.build)
        fun payload => ReceiverReport.decode payload C.build = some r.slim := by
  constructor
  · intro r
    refine delivers hS hsend _ ((r.encode_length C.build).trans (by decide)) ?_
    rw [hxx, r.decode_encode_xx]
  · intro r hr
    refine delivers hS hsend _ ((r.encode_length C.build).trans (by decide)) ?_
    rw [hxx, ReceiverReport.decode_encode_xx hr]

open Scenario in
theorem report_decodes_slim_alice :
    let C := { alice with build := .xx }
    Delivers C aliceStart msgSenderReport
      ({ SenderReport.zero with intervalStartCounter := 2, intervalEndCounter := 5 }.encode .xx)
      (fun payload => SenderReport.decode payload .xx =
        some { SenderReport.zero with intervalEndCounter := 3 }) ∧
    Delivers C aliceStart msgReceiverReport
      ({ ReceiverReport.zero with maxBurstLoss := 4, owdTrend := -1 }.encode .xx)
      fun payload => ReceiverReport.decode payload .xx =
        some { ReceiverReport.zero with owdTrend := -1 } := by
  intro C
  have h := report_decodes_slim (C := C) Additive.suite_lawful rfl aliceStart fun _ _ => rfl
  exact ⟨h.1 _, h.2 _ (by decide)⟩

end Steady
end Node
end Microfips

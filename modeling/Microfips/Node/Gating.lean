import Microfips.Mmp.Shift
import Microfips.Node.Deadlines
import Microfips.Node.Handled
import Microfips.Node.Replies

/-!
# The gate of the receiver reports

On the XX wire a receiver report is to be sent only if the profile of the node provides it and the
peer asked for it.  The timer branch checks that.  The reply to a sender report does not, so that
the reports a session sends are those it negotiated only as long as no sender report comes in.

Which link messages a session sent is read from its trace: a frame that was sent directly after it
was sealed is opened with the key it was sealed with.
-/

namespace Microfips
namespace Node

open Noise Wire Mmp

variable {H M : Type} (C : Config H M)

def linkType (ks : Block 32) (frame : Bytes) : Option UInt8 :=
  match decryptEstablishedFrame C.suite C.build C.usizeBits ks frame ReplayWindow.new with
  | .ok (some opened, _) => some opened.msgType
  | _ => none

def sentType (frame : Bytes) : List Event → Option UInt8
  | .key (.sealed ks _) :: _ => linkType C ks frame
  | _ => none

def transmitted : List Event → List UInt8
  | [] => []
  | .frame (.sent frame) :: events => (sentType C frame events).toList ++ transmitted events
  | _ :: events => transmitted events

variable {C}

theorem transmitted_plain {e : Event} (h : Plain e) (events : List Event) :
    transmitted C (e :: events) = transmitted C events := by
  cases h <;> rfl

variable {frame : Bytes}

theorem linkType_of_isHandshake (h : IsHandshake C.build frame) (ks : Block 32) :
    linkType C ks frame = none := by
  obtain ⟨msg, hparse, hmsg⟩ := h
  have hnone : decryptEstablishedFrame C.suite C.build C.usizeBits ks frame ReplayWindow.new =
      .ok (none, ReplayWindow.new) := by
    rw [decryptEstablishedFrame]
    split
    · rename_i hestablished
      exact absurd (Option.some.inj (hparse.symm.trans hestablished)) (hmsg _ _ _)
    · rfl
  rw [linkType, hnone]

theorem transmitted_handshake (h : IsHandshake C.build frame) (sent : Bool) (events : List Event) :
    transmitted C (sentEvents sent frame ++ events) = transmitted C events := by
  cases sent with
  | false => rfl
  | true =>
      have hnone : sentType C frame events = none := by
        rw [sentType.eq_def]
        split
        · exact linkType_of_isHandshake h _
        · rfl
      change (sentType C frame events).toList ++ transmitted C events = _
      rw [hnone]
      rfl

theorem linkType_of_sealed (hS : C.suite.Lawful) {receiverIdx : SessionIndex} {counter : UInt64}
    {ts : UInt32} {msgType flags : UInt8} {body inner : Bytes} {innerLen : ℕ} {ks : Block 32}
    (hinner : prependInnerHeader ts (msgType :: body) innerLen = some inner)
    (hframe : encryptAndAssemble C.suite C.build receiverIdx counter flags inner ks 256 =
      some frame) : ∀ t ∈ linkType C ks frame, t = msgType := by
  have heq : inner = Bytes.ofNat 4 ts.toNat ++ msgType :: body := by
    rw [prependInnerHeader] at hinner
    split_ifs at hinner
    exact (Option.some.inj hinner).symm
  have hlen : establishedHeaderSize + (inner.length + tagSize) ≤ 256 := by
    by_contra hlen
    rw [encryptAndAssemble, if_pos (by omega)] at hframe
    cases hframe
  rw [encryptAndAssemble_eq_some C.suite C.build receiverIdx counter flags ks hlen] at hframe
  obtain rfl := Option.some.inj hframe
  have hbody : body.length + innerHeaderSize ≤ maxFrameSize := by
    rw [heq] at hlen
    simp [establishedHeaderSize, tagSize] at hlen
    simp only [innerHeaderSize, maxFrameSize]
    omega
  intro t ht
  rw [linkType] at ht
  split at ht
  · rename_i opened _ hopen
    obtain ⟨hnone, -⟩ | ⟨c, hcheck, -, hopens, -⟩ := decryptEstablishedFrame_cases hopen
    · cases hnone
    · rw [Opens, openedCounter, parse_buildEstablishedHeader_append] at hopens
      dsimp only at hopens
      split at hopens
      · cases hopens
      · obtain rfl := Option.some.inj hopens
        obtain ⟨_, -, hopen'⟩ :=
          decryptEstablishedFrame_seal hS C.build receiverIdx flags ts msgType hbody ks hcheck
        rw [← heq, hopen] at hopen'
        obtain rfl := Option.some.inj (Prod.mk.inj (Except.ok.inj hopen')).1
        exact (Option.some.inj ht).symm
  · cases ht

/-- The session sent no receiver report, and keeps nothing but handshake messages for a resend. -/
structure Reportless (C : Config H M) (a : Accounts M) : Prop where
  transmitted : msgReceiverReport ∉ transmitted C a.trace
  msg1 : ∀ frame ∈ a.msg1, IsHandshake C.build frame
  msg2 : ∀ frame ∈ a.msg2, IsHandshake C.build frame

namespace Reportless

variable {a b : Accounts M}

theorem congr (h : Reportless C a)
    (htransmitted : Node.transmitted C b.trace = Node.transmitted C a.trace)
    (hmsg1 : b.msg1 = a.msg1) (hmsg2 : b.msg2 = a.msg2) : Reportless C b := by
  refine ⟨?_, ?_, ?_⟩
  · rw [htransmitted]
    exact h.transmitted
  · rw [hmsg1]
    exact h.msg1
  · rw [hmsg2]
    exact h.msg2

theorem handOn (h : Reportless C a) (kr : Block 32) (c : UInt64) : Reportless C (a.handOn kr c) :=
  h.congr rfl rfl rfl

theorem cutOver (h : Reportless C a) (slot : EpochSlot) (cause : Cutover) (drainBase resetAt : ℕ) :
    Reportless C (a.cutOver C slot cause drainBase resetAt) :=
  h.congr rfl rfl rfl

theorem counted (h : Reportless C a) (opened : DecryptedFrame) (now : ℕ) :
    Reportless C (a.counted C opened now) := by
  rw [Accounts.counted]
  split
  · exact h.congr rfl rfl rfl
  · exact h

theorem booking (hS : C.suite.Lawful) (h : Reportless C a)
    (hstep : Booking C (fun t => t ≠ msgReceiverReport) a b) : Reportless C b := by
  cases hstep with
  | count _ => exact h.congr rfl rfl rfl
  | measure _ => exact h.congr rfl rfl rfl
  | spend => exact h.congr rfl rfl rfl
  | @sealMessage _ _ _ _ _ frame _ c sent htype hinner hframe =>
      refine ⟨?_, h.msg1, h.msg2⟩
      cases sent with
      | false => exact h.transmitted
      | true =>
          intro hmem
          rcases List.mem_append.mp hmem with hmem | hmem
          · have heq := linkType_of_sealed hS hinner hframe _ (Option.mem_toList.mp hmem)
            exact htype heq.symm
          · exact h.transmitted hmem
  | send sent hframe => exact h.congr (transmitted_handshake hframe sent _) rfl rfl
  | resend sent hframe =>
      refine h.congr (transmitted_handshake ?_ sent _) rfl rfl
      rcases hframe with hframe | hframe
      · exact h.msg1 _ hframe
      · exact h.msg2 _ hframe
  | log he => exact h.congr (transmitted_plain he _) rfl rfl
  | arm slot => exact h.congr rfl rfl rfl
  | keepMsg1 hframe =>
      refine ⟨h.transmitted, ?_, h.msg2⟩
      rintro frame ⟨⟩
      exact hframe
  | dropMsg1 => exact ⟨h.transmitted, by rintro frame ⟨⟩, h.msg2⟩
  | keepMsg2 hframe =>
      refine ⟨h.transmitted, h.msg1, ?_⟩
      rintro frame ⟨⟩
      exact hframe
  | «try» _ _ _ => exact h.congr rfl rfl rfl

end Reportless

theorem dispatchLinkMessage_ne_receiverReport {build : Build} {handler : NodeHandler H} {now : ℕ}
    {opened : DecryptedFrame} {h : H} (hsr : opened.msgType ≠ msgSenderReport) (body : Bytes) :
    (dispatchLinkMessage build handler now opened h).1 ≠
      .sendLinkMessage msgReceiverReport body := by
  intro heq
  rw [dispatchLinkMessage] at heq
  split at heq
  · cases heq
  · split at heq
    · cases heq
    · split at heq
      · cases heq
      · split at heq
        · rw [dispatchEcho] at heq
          split at heq
          · cases heq
          · split at heq
            · cases heq
            · exact absurd (FrameAction.sendLinkMessage.inj heq).1 (by decide)
        · split at heq
          · cases heq
          · split at heq <;> cases heq

namespace Steady

variable {F : Floats} {C : Config H MmpPeerState}

/-- The reports of the peer are consumed, and a sender report that does not decode is not
answered. -/
theorem maybeHandleMmpControl_quiet (hops : C.mmp = MmpPeerState.ops F C.build)
    {opened : DecryptedFrame}
    (h : opened.msgType = msgSenderReport → SenderReport.decode opened.payload C.build = none)
    {u v : Steady H MmpPeerState} {r : Option FrameAction}
    (hrun : (maybeHandleMmpControl C opened).run u = .ok r v) :
    r = some .continue ∨ r = none ∧ opened.msgType ≠ msgSenderReport := by
  rw [maybeHandleMmpControl] at hrun
  split at hrun
  · rename_i hsr
    obtain ⟨t, u', -, hrun⟩ := EStateM.exists_of_run_bind hrun
    rw [EStateM.run_get_bind, EStateM.run_set_bind, hops] at hrun
    have hnone : ((MmpPeerState.ops F C.build).onSenderReport t opened.payload u'.mmp).1 =
        none := by
      simp only [MmpPeerState.ops, MmpPeerState.onSenderReport, h hsr]
    rw [hnone] at hrun
    exact .inl (EStateM.Result.ok.inj hrun).1.symm
  · rename_i hsr
    split at hrun
    · obtain ⟨t, u', -, hrun⟩ := EStateM.exists_of_run_bind hrun
      exact .inl (EStateM.Result.ok.inj hrun).1.symm
    · exact .inr ⟨(EStateM.Result.ok.inj hrun).1.symm, hsr⟩

/-- A frame that is no sender report that decodes is not answered with a receiver report. -/
theorem repliesAs_ne_receiverReport (hmmp : C.mmpFeature = true)
    (hops : C.mmp = MmpPeerState.ops F C.build) {opened : DecryptedFrame}
    (h : opened.msgType = msgSenderReport → SenderReport.decode opened.payload C.build = none) :
    RepliesAs (C := C) (fun t => t ≠ msgReceiverReport) opened := by
  rintro u v msgType body hrun rfl
  rw [dispatch, if_pos hmmp] at hrun
  obtain ⟨t, u₁, -, hrun⟩ := EStateM.exists_of_run_bind hrun
  obtain ⟨_, u₂, -, hrun⟩ := EStateM.exists_of_run_bind hrun
  obtain ⟨r, u₃, hcontrol, hrun⟩ := EStateM.exists_of_run_bind hrun
  obtain rfl | ⟨rfl, hsr⟩ := maybeHandleMmpControl_quiet hops h hcontrol
  · cases (EStateM.Result.ok.inj hrun).1
  · exact dispatchLinkMessage_ne_receiverReport hsr body (EStateM.Result.ok.inj hrun).1

variable (C)

def NoSenderReport (frame : Bytes) (s : Steady H MmpPeerState) : Prop :=
  ∀ opened winner, OpensAs C frame s opened winner → opened.msgType = msgSenderReport →
    SenderReport.decode opened.payload C.build = none

variable {C}

theorem kept_reportless (hS : C.suite.Lawful) (hmmp : C.mmpFeature = true)
    (hops : C.mmp = MmpPeerState.ops F C.build) (hgate : mmpSendRr C = false) :
    Kept C (fun t => t ≠ msgReceiverReport) (NoSenderReport C) (Reportless C) where
  ordinary := by
    refine ⟨by decide, by decide, by decide, by decide, fun h => ?_⟩
    exact absurd h (by simp [hgate])
  booking _ _ ha hstep := ha.booking hS hstep
  reply frame s opened winner hP hopens :=
    repliesAs_ne_receiverReport hmmp hops (hP opened winner hopens)
  takeUp frame s opened winner _ _ a b now ha htaken := by
    cases htaken with
    | cur => exact (ha.handOn _ _).counted opened now
    | pend resetAt _ => exact ((ha.cutOver _ _ _ _).handOn _ _).counted opened now
    | prev _ =>
        have hdrain : Reportless C { a with prevDrainBase := C.world.clock (s.calls + 2) } :=
          ha.congr rfl rfl rfl
        exact (hdrain.handOn _ _).counted opened now
  cutOver _ _ _ _ _ ha := ha.cutOver _ _ _ _
  sweep _ ha := ha.congr rfl rfl rfl

/-- With the feature `mmp` and a lawful cipher, a session into which no sender report comes
transmits a receiver report only if its profile provides them and its peer asked for them. -/
theorem receiverReport_negotiated (hS : C.suite.Lawful) (hmmp : C.mmpFeature = true)
    (hops : C.mmp = MmpPeerState.ops F C.build) {s₀ : Steady H MmpPeerState} (hs : Entered C s₀)
    (inputs : List Input) (hreports : ∀ x ∈ handled C inputs s₀, NoSenderReport C x.1 x.2)
    (h : msgReceiverReport ∈ transmitted C (after C s₀ inputs).trace) :
    fmpFeatures C.ourProfile &&& fmpFeatProvidesRr ≠ 0 ∧ C.peerWantsRr = true := by
  have hgate : mmpSendRr C = true := by
    by_contra hgate
    have hstart : Reportless C s₀.accounts := by
      obtain ⟨ks, kr, them, policy, handler, mmp, calls⟩ := hs
      exact ⟨by rintro ⟨⟩, by rintro frame ⟨⟩, by rintro frame ⟨⟩⟩
    have hkept := kept_reportless hS hmmp hops (Bool.eq_false_of_not_eq_true hgate)
    exact (hkept.run inputs hreports hstart).transmitted h
  simpa [mmpSendRr] using hgate

theorem noSenderReport_of_openedType {frame : Bytes} {s : Steady H MmpPeerState}
    (h : openedType C frame s ≠ some msgSenderReport) : NoSenderReport C frame s := by
  rintro opened winner ⟨t, hrun, -⟩ hsr
  rw [openedType, hrun] at h
  exact absurd (congrArg some hsr) h

end Steady

namespace Scenario

def peerFrame (c : UInt64) (message : Bytes) : Bytes :=
  (encryptAndAssemble Additive.suite .xx 0 c 0 (Bytes.ofNat 4 0 ++ message)
    (Block.replicate 32 8) 256).getD []

end Scenario

namespace Steady

open Scenario in
theorem receiverReport_negotiated_timer :
    msgReceiverReport ∈ transmitted (measured .xx true true)
        (after (measured .xx true true) (measuredStart (measured .xx true true))
          [.recv (peerFrame 0 [msgHeartbeat])]).trace ∧
      fmpFeatures (measured .xx true true).ourProfile &&& fmpFeatProvidesRr ≠ 0 ∧
        (measured .xx true true).peerWantsRr = true := by
  have h : msgReceiverReport ∈ transmitted (measured .xx true true)
        (after (measured .xx true true) (measuredStart (measured .xx true true))
          [.recv (peerFrame 0 [msgHeartbeat])]).trace ∧
      ∀ x ∈ handled (measured .xx true true) [.recv (peerFrame 0 [msgHeartbeat])]
          (measuredStart (measured .xx true true)),
        openedType (measured .xx true true) x.1 x.2 ≠ some msgSenderReport := by
    decide +kernel
  refine ⟨h.1, ?_⟩
  exact receiverReport_negotiated (C := measured .xx true true) Additive.suite_lawful rfl rfl
    (.intro _ _ _ _ _ _ _) _ (fun x hx => noSenderReport_of_openedType (h.2 x hx)) h.1

open Scenario in
/-- The peer of this node did not ask for receiver reports.  A sender report is answered with
one. -/
theorem receiverReport_unasked :
    (measured .xx true false).peerWantsRr = false ∧
      msgReceiverReport ∈ transmitted (measured .xx true false)
        (after (measured .xx true false) (measuredStart (measured .xx true false))
          [.recv (peerFrame 0 (msgSenderReport :: SenderReport.zero.encode .xx))]).trace := by
  decide +kernel

end Steady
end Node
end Microfips

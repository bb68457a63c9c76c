import Microfips.Mmp.Instants
import Microfips.Noise.Safety
import Microfips.Node.Steady

/-!
# The steady loop does not panic

The loop unwraps keys of the handshakes that it holds, accepts counters that it has checked, copies
into a response buffer and subtracts instants.  What it keeps between two of its calls makes all of
that safe: a responder that waits for msg3 has its keys, and the instants that are subtracted are
in the past of every later reading of the clock.
-/

namespace Microfips
namespace Node

open Noise Wire Mmp EStateM

variable {H : Type}

/-- A node is given what it may rely on: a clock that does not run backwards, a handler that writes
no more than its buffer holds, and the measurements of the program. -/
structure Config.Regular (C : Config H Watched) (F : Floats) : Prop where
  clock : Monotone C.world.clock
  onMessage : ∀ t msgType payload h data,
    (C.handler.onMessage t msgType payload h).1 = .sendDatagram data → data.length ≤ respBufSize
  onTick : ∀ t h data, (C.handler.onTick t h).1 = .sendDatagram data → data.length ≤ respBufSize
  mmp : C.mmp = Watched.ops F C.build

def FrameAction.Fits : FrameAction → Prop
  | .sendDatagram data => data.length ≤ respBufSize
  | .sendLinkMessage _ body => body.length ≤ respBufSize
  | _ => True

namespace Steady

/-- What makes the calls of the loop safe.  No instant that is subtracted is after `t`, and `t` is
in the past of every later reading of the clock. -/
structure SoundAt (C : Config H Watched) (t : ℕ) (s : Steady H Watched) : Prop where
  past : ∀ n, s.calls ≤ n → t ≤ C.world.clock n
  fresh : ∀ r ∈ s.lastFreshAnswerAt, r ≤ t
  mmp : s.mmp.InPast t
  ready : ∀ hs ∈ s.rekeyHs, hs.responder.Ready

def Sound (C : Config H Watched) (s : Steady H Watched) : Prop :=
  ∃ t, SoundAt C t s

def vitals (s : Steady H Watched) : ℕ × Option ℕ × Watched × Option RekeyHs :=
  (s.calls, s.lastFreshAnswerAt, s.mmp, s.rekeyHs)

variable {C : Config H Watched} {F : Floats} {t : ℕ}

theorem SoundAt.congr {s u : Steady H Watched} (hs : SoundAt C t s) (h : u.vitals = s.vitals) :
    SoundAt C t u := by
  simp only [vitals, Prod.mk.injEq] at h
  obtain ⟨hcalls, hfresh, hmmp, hwaiting⟩ := h
  exact ⟨hcalls ▸ hs.past, hfresh ▸ hs.fresh, hmmp ▸ hs.mmp, hwaiting ▸ hs.ready⟩

theorem maintains_modify {f : Steady H Watched → Steady H Watched}
    (h : ∀ s, (f s).vitals = s.vitals) :
    Maintains (SoundAt C t) (modify f : Action H Watched PUnit) :=
  .modify fun s hs => hs.congr (h s)

/-! ## Calls out of the loop -/

variable {α : Type}

theorem maintains_ask (answer : ℕ → α) : Maintains (SoundAt C t) (ask answer) :=
  fun _ hs => ⟨fun n hn => hs.past n (Nat.le_of_succ_le hn), hs.fresh, hs.mmp, hs.ready⟩

theorem meets_now (hC : C.Regular F) {s : Steady H Watched} (hs : SoundAt C t s) :
    (now C).Meets s (fun t' u => t ≤ t' ∧ SoundAt C t' u) (Sound C) := by
  have hle : t ≤ C.world.clock s.calls := hs.past _ le_rfl
  refine ⟨hle, fun n hn => hC.clock (Nat.le_of_succ_le hn), fun r hr => (hs.fresh r hr).trans hle,
    hs.mmp.mono hle, hs.ready⟩

theorem maintains_emit (e : KeyEvent) : Maintains (SoundAt C t) (emit e) :=
  maintains_modify fun _ => rfl

theorem maintains_note (e : FrameEvent) : Maintains (SoundAt C t) (note e) :=
  maintains_modify fun _ => rfl

theorem provides_attempt {I : Steady H Watched → Prop} {σ : Type} {Q : α → σ → Prop} {E : σ → Prop}
    {m : EStateM (Fault NoiseError) σ α} {object : σ} (hm : m.Meets object Q E) :
    Provides I (fun r => ∀ p ∈ r, Q p.1 p.2) (attempt m object) := by
  intro s hs
  rw [attempt]
  obtain ⟨a, hcall, ha⟩ | ⟨e, hcall⟩ := hm.call.cases
  · rw [hcall]
    refine ⟨hs, fun p hp => ?_⟩
    obtain rfl := Option.some.inj hp
    exact ha
  · rw [hcall]
    exact ⟨hs, fun p hp => by cases hp⟩

theorem maintains_sendFrame (payload : Bytes) : Maintains (SoundAt C t) (sendFrame C payload) := by
  refine Maintains.bind ?_ fun sent => ?_
  · rw [sendParts]
    split
    · exact maintains_ask _
    · refine (maintains_ask _).bind fun sent => ?_
      split
      · exact maintains_ask _
      · exact .pure _
  · split
    · exact (maintains_note _).bind fun _ => .pure _
    · exact .pure _

theorem maintains_onEvent (event : NodeEvent) : Maintains (SoundAt C t) (onEvent C event) :=
  (maintains_ask _).bind fun _ => maintains_modify fun _ => rfl

theorem maintains_takeCounter : Maintains (SoundAt C t) (takeCounter (H := H)) :=
  .get_bind fun _ hs => .set_bind
    ((maintains_emit _).bind (fun _ => .pure _) _ (hs.congr rfl))

theorem maintains_recordSent (hC : C.Regular F) (c : UInt64) (ts : UInt32) (bytes : ℕ) :
    Maintains (SoundAt C t) (recordSent C c ts bytes) := by
  rw [recordSent]
  split
  · refine .modify fun s hs => ⟨hs.past, hs.fresh, ?_, hs.ready⟩
    rw [hC.mmp]
    exact hs.mmp.recordSent c ts bytes
  · exact .pure _

theorem maintains_sealAndSend (hC : C.Regular F) (c : UInt64) (msg : Bytes) (innerLen : ℕ) :
    Maintains (SoundAt C t) (sealAndSend C c msg innerLen) := by
  refine (maintains_ask _).bind fun now => ?_
  split
  · exact .pure _
  · refine .get_bind fun s hs => ?_
    split
    · exact hs
    · refine (maintains_emit _).bind (fun _ => (maintains_sendFrame _).bind fun _ => ?_) s hs
      exact (maintains_recordSent hC _ _ _).bind fun _ => .pure _

theorem maintains_sendLinkMessage (hC : C.Regular F) (msgType : UInt8) {body : Bytes}
    (hbody : body.length ≤ respBufSize) :
    Maintains (SoundAt C t) (sendLinkMessage C msgType body) := by
  refine maintains_takeCounter.bind fun c => ?_
  rw [if_neg (Nat.not_lt.mpr hbody)]
  refine (maintains_sealAndSend hC _ _ _).bind fun sealed => ?_
  split
  · exact maintains_modify fun _ => rfl
  · exact .pure _

theorem maintains_sendHeartbeat (hC : C.Regular F) : Maintains (SoundAt C t) (sendHeartbeat C) :=
  maintains_takeCounter.bind fun _ => (maintains_sealAndSend hC _ _ _).bind fun _ =>
    (maintains_ask _).bind fun _ => .pure _

theorem maintains_sendDisconnect (hC : C.Regular F) (reason : UInt8) :
    Maintains (SoundAt C t) (sendDisconnect C reason) :=
  maintains_takeCounter.bind fun _ => (maintains_sealAndSend hC _ _ _).bind fun _ => .pure _

theorem maintains_refresh : Maintains (SoundAt C t) (refresh C) :=
  (maintains_ask _).bind fun _ => maintains_modify fun _ => rfl

/-! ## Rekeying -/

theorem maintains_sendRekeyMsg1 (n1 : Bytes) (hs : LinkInitiator) :
    Maintains (SoundAt C t) (sendRekeyMsg1 C n1 hs) := by
  refine (maintains_ask _).bind fun ourIndex => ?_
  split
  · exact .pure _
  · refine (maintains_sendFrame _).bind fun sent => ?_
    split
    · exact (maintains_ask _).bind fun _ => .pure _
    · exact .pure _

theorem maintains_initiateRekey : Maintains (SoundAt C t) (initiateRekey C) := by
  rw [initiateRekey]
  split
  · split
    · exact .pure _
    · refine (maintains_ask _).bind fun eph => ?_
      split
      · exact .pure _
      · refine (provides_attempt (NoiseIkInitiator.meets_writeMessage1 _ _ _)).maintains_bind
          fun r _ => ?_
        split
        · exact .pure _
        · exact maintains_sendRekeyMsg1 _ _
  · refine (maintains_ask _).bind fun eph => ?_
    split
    · exact .pure _
    · refine (provides_attempt (NoiseXxInitiator.meets_writeMessage1 _)).maintains_bind
        fun r _ => ?_
      split
      · exact .pure _
      · exact maintains_sendRekeyMsg1 _ _

theorem maintains_answerRekeyMsg1Ik (peerSenderIdx : SessionIndex) (np : Bytes) (curKBit : Bool) :
    Maintains (SoundAt C t) (answerRekeyMsg1Ik C peerSenderIdx np curKBit) := by
  rw [answerRekeyMsg1Ik]
  split
  · exact .pure _
  · split
    · exact .pure _
    · rename_i responder hnew
      refine (provides_attempt (NoiseIkResponder.meets_readMessage1
        (NoiseIkResponder.ready_of_new hnew) _)).maintains_bind fun r _ => ?_
      split
      · exact .pure _
      · split
        · refine (maintains_ask _).bind fun respEph => ?_
          refine (provides_attempt (NoiseIkResponder.meets_writeMessage2 _ _ _)).maintains_bind
            fun r _ => ?_
          split
          · exact .pure _
          · refine (maintains_ask _).bind fun respIndex => ?_
            split <;> exact .pure _
        · exact .pure _

theorem provides_beginRekeyXx (peerSenderIdx : SessionIndex) (np : Bytes) :
    Provides (SoundAt C t) (fun r => ∀ p ∈ r, p.1.responder.Ready)
      (beginRekeyXx C peerSenderIdx np) := by
  have hnone : Provides (SoundAt C t) (fun r : Option (RekeyHs × Bytes) =>
      ∀ p ∈ r, p.1.responder.Ready) (pure none : Action H Watched _) := .pure (by simp)
  rw [beginRekeyXx]
  split
  · exact hnone
  · split
    · exact hnone
    · refine (provides_attempt (NoiseXxResponder.meets_readMessage1 _)).bind fun r _ => ?_
      split
      · exact hnone
      · refine (maintains_ask _).provides_bind fun respEph => ?_
        refine (provides_attempt (NoiseXxResponder.meets_writeMessage2 _ _ _)).bind
          fun r hr => ?_
        split
        · exact hnone
        · rename_i msg2Noise responder
          refine (maintains_ask _).provides_bind fun respIndex => ?_
          split
          · exact hnone
          · refine .pure fun p hp => ?_
            obtain rfl := Option.some.inj hp
            exact hr _ rfl

theorem maintains_arm (slot : EpochSlot) : Maintains (SoundAt C t) (arm slot) :=
  .get_bind fun _ hs => .set_bind (maintains_emit _ _ (hs.congr rfl))

theorem maintains_remember (msg1Wire msg2 : Bytes) :
    Maintains (SoundAt C t) (remember msg1Wire msg2) :=
  maintains_modify fun _ => rfl

theorem maintains_answerMsg1 (senderIdx : SessionIndex) (np msg1Wire : Bytes) :
    Maintains (SoundAt C t) (answerMsg1 C senderIdx np msg1Wire) := by
  rw [answerMsg1]
  split
  · refine .get_bind fun s hs => (maintains_answerRekeyMsg1Ik _ _ _).bind (fun r => ?_) s hs
    split
    · exact .pure _
    · refine (maintains_sendFrame _).bind fun _ => (maintains_arm _).bind fun _ => ?_
      exact (maintains_remember _ _).bind fun _ => .pure _
  · refine (provides_beginRekeyXx _ _).maintains_bind fun r hr => ?_
    split
    · exact .pure _
    · refine (maintains_sendFrame _).bind fun _ => Maintains.bind (.modify ?_) fun _ => ?_
      · rintro s hs
        refine ⟨hs.past, hs.fresh, hs.mmp, fun waiting hwaiting => ?_⟩
        obtain rfl := Option.some.inj hwaiting
        exact hr _ rfl
      · exact (maintains_remember _ _).bind fun _ => .pure _

theorem maintains_freshOk : Maintains (SoundAt C t) (freshOk C) := by
  refine .get_bind fun s hs => ?_
  split
  · exact hs
  · rename_i r hr
    have hle : r ≤ C.world.clock s.calls := (hs.fresh r hr).trans (hs.past _ le_rfl)
    refine .bind (Q := fun now u => now = C.world.clock s.calls ∧ SoundAt C t u)
      ⟨rfl, maintains_ask C.world.clock s hs⟩ fun now u hu => ?_
    rw [if_neg (by rw [hu.1]; exact Nat.not_lt.mpr hle)]
    exact hu.2

theorem maintains_resendMsg2 : Maintains (SoundAt C t) (resendMsg2 C) := by
  refine .get_bind fun s hs => ?_
  split
  · exact hs
  · exact (maintains_sendFrame _).bind (fun _ => .pure _) s hs

theorem maintains_notePeerRekey : Maintains (SoundAt C t) (notePeerRekey C) :=
  (maintains_ask _).bind fun _ => .bind (maintains_modify fun _ => rfl) fun _ => maintains_refresh

theorem maintains_now_bind (hC : C.Regular F) {f : ℕ → Action H Watched α}
    (hf : ∀ t, Maintains (SoundAt C t) (f t)) : Maintains (Sound C) (now C >>= f) := by
  rintro s ⟨t, hs⟩
  exact (meets_now hC hs).bind fun t' u hu => (hf t' u hu.2).mono (fun _ _ h => ⟨t', h⟩)
    fun _ h => ⟨t', h⟩

theorem maintains_answerFresh (hC : C.Regular F) (senderIdx : SessionIndex) (np msg1Wire : Bytes) :
    Maintains (Sound C) (do
      let t ← now C
      modify fun s => { s with lastFreshAnswerAt := some t }
      if ← answerMsg1 C senderIdx np msg1Wire then notePeerRekey C else return ⟨⟩) := by
  refine maintains_now_bind hC fun t => Maintains.bind (.modify fun s hs => ?_) fun _ => ?_
  · refine ⟨hs.past, fun r hr => ?_, hs.mmp, hs.ready⟩
    obtain rfl := Option.some.inj hr
    exact le_rfl
  · refine (maintains_answerMsg1 _ _ _).bind fun answered => ?_
    split
    · exact maintains_notePeerRekey
    · exact .pure _

theorem maintains_handleMsg1 (hC : C.Regular F) (frame : Bytes) (senderIdx : SessionIndex)
    (np : Bytes) : Maintains (Sound C) (handleMsg1 C frame senderIdx np) := by
  refine Maintains.bind (.of_forall fun _ => maintains_note _) fun _ => .get_bind fun s hs => ?_
  split
  · exact Maintains.of_forall
      (fun _ => maintains_resendMsg2.bind fun _ => maintains_notePeerRekey) s hs
  · refine Maintains.bind (.of_forall fun _ => maintains_freshOk) (fun fresh => ?_) s hs
    split
    · exact maintains_answerFresh hC _ _ _
    · exact .pure _

theorem maintains_handleMsg3 (frame np : Bytes) {waiting : RekeyHs}
    (hready : waiting.responder.Ready) :
    Maintains (SoundAt C t) (handleMsg3 C frame np waiting) := by
  refine Maintains.bind (.modify fun s hs => ⟨hs.past, hs.fresh, hs.mmp, by simp⟩) fun _ => ?_
  refine (maintains_note _).bind fun _ => ?_
  refine (provides_attempt (NoiseXxResponder.meets_readMessage3 hready _)).maintains_bind
    fun r _ => ?_
  split
  · exact maintains_refresh
  · split
    · exact .get_bind fun s hs => (maintains_arm _).bind (fun _ => maintains_refresh) s hs
    · exact maintains_refresh

theorem maintains_completeXx (ri : RekeyInit) (hs : NoiseXxInitiator) (senderIdx : SessionIndex)
    (np : Bytes) : Maintains (SoundAt C t) (completeXx C ri hs senderIdx np) := by
  refine (provides_attempt (NoiseXxInitiator.meets_readMessage2 _)).maintains_bind fun r hr => ?_
  split
  · exact .pure _
  · split
    · split
      · exact .pure _
      · refine (provides_attempt
          (NoiseXxInitiator.meets_writeMessage3 (hr _ rfl) _ _ _)).maintains_bind
          fun r _ => ?_
        split
        · exact .pure _
        · split
          · exact .pure _
          · refine (maintains_sendFrame _).bind fun sent => ?_
            split <;> exact .pure _
    · exact .pure _

theorem maintains_complete (ri : RekeyInit) (senderIdx : SessionIndex) (np : Bytes) :
    Maintains (SoundAt C t) (complete C ri senderIdx np) := by
  rw [complete]
  split
  · refine Maintains.bind ?_ fun _ => .pure _
    refine (provides_attempt (NoiseIkInitiator.meets_readMessage2 _)).maintains_bind fun r _ => ?_
    split <;> exact .pure _
  · exact maintains_completeXx _ _ _ _

theorem maintains_handleMsg2 (frame : Bytes) (senderIdx receiverIdx : SessionIndex) (np : Bytes)
    (ri : RekeyInit) : Maintains (SoundAt C t)
      (handleMsg2 C frame senderIdx receiverIdx np ri) := by
  rw [handleMsg2]
  split
  · exact (maintains_note _).bind fun _ => maintains_refresh
  · refine .bind (maintains_modify fun _ => rfl) fun _ => ?_
    refine (maintains_note _).bind fun _ => (maintains_complete _ _ _).bind fun keys => ?_
    split
    · exact .pure _
    · exact maintains_refresh
    · refine .get_bind fun s hs => (maintains_arm _).bind (fun _ => ?_) s hs
      exact .bind (maintains_modify fun _ => rfl) fun _ => maintains_refresh

/-! ## Opening frames -/

theorem maintains_tryCur (frame : Bytes) : Maintains (SoundAt C t) (tryCur C frame) := by
  refine .get_bind fun s hs => ?_
  obtain ⟨r, hr⟩ := exists_decryptEstablishedFrame C.suite C.build C.usizeBits s.cur.kr frame
    s.cur.replay
  rw [hr]
  exact hs.congr rfl

theorem maintains_tryPend (frame : Bytes) : Maintains (SoundAt C t) (tryPend C frame) := by
  refine .get_bind fun s hs => ?_
  split
  · exact hs
  · rename_i slot hslot
    obtain ⟨r, hr⟩ := exists_decryptEstablishedFrame C.suite C.build C.usizeBits slot.kr frame
      slot.replay
    rw [hr]
    exact hs.congr rfl

theorem maintains_tryPrev (frame : Bytes) : Maintains (SoundAt C t) (tryPrev C frame) := by
  refine .get_bind fun s hs => ?_
  split
  · exact hs
  · rename_i slot hslot
    obtain ⟨r, hr⟩ := exists_decryptEstablishedFrame C.suite C.build C.usizeBits slot.kr frame
      slot.replay
    rw [hr]
    exact hs.congr rfl

theorem maintains_tryPrevLast (frame : Bytes) : Maintains (SoundAt C t) (tryPrevLast C frame) := by
  refine (maintains_tryPrev _).bind fun r => ?_
  split <;> exact .pure _

theorem maintains_openFrame (frame : Bytes) : Maintains (SoundAt C t) (openFrame C frame) := by
  refine .get_bind fun s hs => ?_
  split
  · refine (maintains_tryPend _).bind (fun r => ?_) s hs
    split
    · exact .pure _
    · refine (maintains_tryCur _).bind fun r => ?_
      split
      · exact .pure _
      · exact maintains_tryPrevLast _
  · refine (maintains_tryCur _).bind (fun r => ?_) s hs
    split
    · exact .pure _
    · refine (maintains_tryPend _).bind fun r => ?_
      split
      · exact .pure _
      · exact maintains_tryPrevLast _

theorem maintains_promote (cause : Cutover) : Maintains (SoundAt C t) (promote cause) := by
  refine .get_bind fun s hs => ?_
  split
  · exact hs
  · exact .set_bind (maintains_emit _ _ (hs.congr rfl))

section Regular

variable (hC : C.Regular F)

include hC

theorem maintains_resetMmp : Maintains (SoundAt C t) (resetMmp C) := by
  rw [resetMmp]
  split
  · refine (maintains_ask _).bind fun now => .modify fun s hs => ⟨hs.past, hs.fresh, ?_, hs.ready⟩
    rw [hC.mmp]
    exact hs.mmp.resetForRekey now
  · exact .pure _

theorem maintains_afterPromotion (drainBase started : ℕ) :
    Maintains (SoundAt C t) (afterPromotion C drainBase started) := by
  refine .bind (maintains_modify fun _ => rfl) fun _ => ?_
  refine (maintains_resetMmp hC).bind fun _ => (maintains_ask _).bind fun _ => ?_
  exact maintains_modify fun _ => rfl

theorem maintains_processFrameAction {action : FrameAction}
    (haction : action.Fits) : Maintains (SoundAt C t) (processFrameAction C action) := by
  cases action with
  | «continue» => exact .pure _
  | heartbeatRecv =>
      exact .bind (maintains_modify fun _ => rfl) fun _ => (maintains_onEvent _).bind fun _ =>
        .pure _
  | peerDc reason => exact .pure _
  | selfDc => exact (maintains_sendDisconnect hC _).bind fun _ => .pure _
  | sendDatagram data =>
      refine .bind (maintains_modify fun _ => rfl) fun _ => Maintains.bind ?_ fun _ => .pure _
      exact maintains_sendLinkMessage hC _ haction
  | sendLinkMessage msgType body =>
      refine .bind (maintains_modify fun _ => rfl) fun _ => Maintains.bind ?_ fun _ => .pure _
      exact maintains_sendLinkMessage hC _ haction

/-! ## Dispatch -/

omit hC in
theorem fits_dispatchEcho (now : ℕ) (payload : Bytes) : (dispatchEcho now payload).Fits := by
  rw [dispatchEcho]
  cases hparse : parseEchoRequest payload with
  | none => trivial
  | some r =>
      obtain ⟨sendTs, sequence, body⟩ := r
      rw [parseEchoRequest] at hparse
      split at hparse
      · cases hparse
      · cases hparse
        dsimp only
        cases hbuild : buildEchoResponse (payload.take 8) now (Bytes.slice 8 12 payload)
            (payload.drop 12) respBufSize with
        | none => trivial
        | some response =>
            rw [buildEchoResponse] at hbuild
            split at hbuild
            · cases hbuild
            · rename_i hroom
              cases hbuild
              simp only [FrameAction.Fits, Bytes.slice, respBufSize, List.length_append,
                Bytes.ofNat_length, List.length_take, List.length_drop] at hroom ⊢
              omega

omit hC in
theorem fits_buildReceiverReportResponse (build : Build) (payload : Bytes) :
    (buildReceiverReportResponse build payload).Fits := by
  rw [buildReceiverReportResponse]
  split
  · trivial
  · cases build with
    | ik =>
        simp only [FrameAction.Fits, Bytes.slice, receiverReportBodySize, respBufSize,
          List.length_append, List.length_replicate, List.length_take, List.length_drop]
        omega
    | xx =>
        simp only [FrameAction.Fits, Bytes.slice, receiverReportBodySize, respBufSize,
          List.length_append, List.length_replicate, List.length_take, List.length_drop]
        omega

theorem fits_dispatchLinkMessage (now : ℕ) (frame : DecryptedFrame) (h : H) :
    (dispatchLinkMessage C.build C.handler now frame h).1.Fits := by
  rw [dispatchLinkMessage]
  split
  · trivial
  split
  · trivial
  split
  · exact fits_buildReceiverReportResponse _ _
  split
  · trivial
  split
  · exact fits_dispatchEcho _ _
  split
  · trivial
  have hdata := hC.onMessage now frame.msgType frame.payload h
  split
  · trivial
  · rename_i data h' hmsg
    exact hdata data (by rw [hmsg])
  · trivial

theorem provides_dispatchToHandler (frame : DecryptedFrame) :
    Provides (SoundAt C t) FrameAction.Fits (dispatchToHandler C frame) :=
  (maintains_ask _).provides_bind fun now => .get_bind fun s hs => .set_bind
    ⟨hs.congr rfl, fits_dispatchLinkMessage hC now frame s.handler⟩

theorem provides_now_bind {Q : α → Prop} {f : ℕ → Action H Watched α}
    (hf : ∀ t s, SoundAt C t s → (f t).Meets s (fun a u => Sound C u ∧ Q a) (Sound C)) :
    Provides (Sound C) Q (now C >>= f) := by
  rintro s ⟨t, hs⟩
  exact (meets_now hC hs).bind fun t' u hu => hf t' u hu.2

theorem provides_maybeHandleMmpControl (frame : DecryptedFrame) :
    Provides (Sound C) (fun r => ∀ action ∈ r, action.Fits) (maybeHandleMmpControl C frame) := by
  rw [maybeHandleMmpControl]
  split
  · refine provides_now_bind hC fun t s hs => .get_bind (.set_bind ?_)
    have hmmp : (C.mmp.onSenderReport t frame.payload s.mmp).2.InPast t := by
      rw [hC.mmp]
      exact hs.mmp.onSenderReport frame.payload
    split
    · exact ⟨⟨t, hs.past, hs.fresh, hmmp, hs.ready⟩, by simp [FrameAction.Fits]⟩
    · rename_i body hbody
      rw [hC.mmp] at hbody
      have hlen := Watched.length_le_of_onSenderReport hbody
      refine ⟨⟨t, hs.past, hs.fresh, hmmp, hs.ready⟩, fun action haction => ?_⟩
      obtain rfl := Option.some.inj haction
      exact hlen.trans (by decide)
  · split
    · refine provides_now_bind hC fun t s hs =>
        .modify_bind ⟨⟨t, hs.past, hs.fresh, ?_, hs.ready⟩, ?_⟩
      · rw [hC.mmp]
        exact hs.mmp.onReceiverReport frame.payload
      · simp [FrameAction.Fits]
    · exact .pure (by simp)

omit hC in
theorem provides_sound {Q : α → Prop} {m : Action H Watched α}
    (hm : ∀ t, Provides (SoundAt C t) Q m) : Provides (Sound C) Q m := by
  rintro s ⟨t, hs⟩
  exact (hm t s hs).mono (fun _ _ h => ⟨⟨t, h.1⟩, h.2⟩) fun _ h => ⟨t, h⟩

theorem provides_dispatch (frame : DecryptedFrame) :
    Provides (Sound C) FrameAction.Fits (dispatch C frame) := by
  have hhandler := provides_sound fun _ => provides_dispatchToHandler hC frame
  rw [dispatch]
  split
  · refine provides_now_bind hC fun t s hs => .modify_bind ?_
    refine Provides.bind (provides_maybeHandleMmpControl hC frame) (fun r hr => ?_) _
      ⟨t, hs.past, hs.fresh, ?_, hs.ready⟩
    · split
      · exact .pure (hr _ rfl)
      · exact hhandler
    · rw [hC.mmp]
      exact hs.mmp.recordRecv _ _ _
  · exact hhandler

/-! ## The receive loop -/

theorem maintains_rejectFrame : Maintains (SoundAt C t) (rejectFrame C) := by
  refine (maintains_ask _).bind fun now => .get_bind fun s hs => ?_
  split
  · exact hs
  · refine .set_bind ?_
    split
    · exact (maintains_sendDisconnect hC _).bind (fun _ => .throw_err _) _
        (hs.congr rfl)
    · exact hs.congr rfl

theorem maintains_settleWinner (frame : Bytes) (winner : Winner) :
    Maintains (SoundAt C t) (settleWinner C frame winner) := by
  cases winner with
  | cur => exact .pure _
  | pend =>
      refine (maintains_promote _).bind fun _ => (maintains_ask _).bind fun drainBase => ?_
      exact (maintains_ask _).bind fun started => maintains_afterPromotion hC _ _
  | prev =>
      exact (maintains_ask _).bind fun _ =>
        maintains_modify fun _ => rfl

theorem maintains_takeUp (frame : Bytes) (opened : DecryptedFrame)
    (winner : Winner) : Maintains (SoundAt C t) (takeUp C frame opened winner) :=
  maintains_refresh.bind fun _ => .get_bind fun s hs =>
    (maintains_settleWinner hC _ _).bind (fun _ => maintains_emit _) s hs

theorem maintains_handleEstablished (frame : Bytes) :
    Maintains (Sound C) (handleEstablished C frame) := by
  refine Maintains.bind (.of_forall fun _ => maintains_openFrame _) fun r => ?_
  refine Maintains.bind (.of_forall fun _ => maintains_note _) fun _ => ?_
  split
  · exact .of_forall fun _ => maintains_rejectFrame hC
  · refine Maintains.bind (.of_forall fun _ => maintains_takeUp hC _ _ _) fun _ => ?_
    refine (provides_dispatch hC _).maintains_bind fun action haction => ?_
    refine Maintains.bind (.of_forall fun _ => maintains_processFrameAction hC haction) fun ended =>
      ?_
    split
    · exact .throw_err _
    · exact .pure _

theorem maintains_handleFrame (frame : Bytes) : Maintains (Sound C) (handleFrame C frame) := by
  refine Maintains.bind (.of_forall fun _ => maintains_ask _) fun now => .get_bind fun s hs => ?_
  obtain ⟨t, hs⟩ := hs
  have hs' : ∀ policy, Sound C { s with policy := policy } :=
    fun policy => ⟨t, hs.congr rfl⟩
  refine .set_bind ?_
  split
  · exact hs' _
  · split
    · exact maintains_handleMsg1 hC _ _ _ _ (hs' _)
    · rename_i waiting _ _ hwaiting
      split
      · exact Maintains.of_forall (fun _ => maintains_handleMsg3 _ _ (hs.ready _ hwaiting)) _
          (hs' _)
      · exact maintains_handleEstablished hC _ _ (hs' _)
    · exact Maintains.of_forall (fun _ => maintains_handleMsg2 _ _ _ _ _) _ (hs' _)
    · exact maintains_handleEstablished hC _ _ (hs' _)

theorem maintains_handleFrames (frames : List Bytes) :
    Maintains (Sound C) (handleFrames C frames) := by
  induction frames with
  | nil => exact .pure _
  | cons frame frames ih => exact (maintains_handleFrame hC frame).bind fun _ => ih

/-! ## What is due -/

theorem maintains_heartbeatIfDue (due : ℕ) : Maintains (SoundAt C t) (heartbeatIfDue C due) := by
  refine .get_bind fun s hs => ?_
  split
  · refine (maintains_sendHeartbeat hC).bind (fun nextHb => ?_) s hs
    refine .bind (maintains_modify fun _ => rfl) fun _ => ?_
    exact (maintains_onEvent _).bind fun _ => .pure _
  · exact hs

theorem maintains_sendReport (msgType : UInt8) {report : Option Bytes}
    (hreport : ∀ body ∈ report, body.length ≤ 68) :
    Maintains (SoundAt C t) (sendReport C msgType report) := by
  cases report with
  | none => exact .pure _
  | some body =>
      exact maintains_sendLinkMessage hC _ ((hreport body rfl).trans (by decide))

theorem maintains_sendPlainReport (due : ℕ) : Maintains (SoundAt C t) (sendPlainReport C due) := by
  refine .get_bind fun s hs => (maintains_sendLinkMessage hC _ ?_).bind (fun _ => ?_) s hs
  · cases C.build with
    | ik => simp [senderReportBodySize, respBufSize]
    | xx => simp [senderReportBodySize, respBufSize]
  · exact maintains_modify fun _ => rfl

theorem maintains_senderReportIfDueIk (due : ℕ) :
    Maintains (SoundAt C t) (senderReportIfDueIk C due) := by
  refine .get_bind fun s hs => ?_
  split
  · refine .set_bind (maintains_sendReport hC _ (fun body hbody => ?_) _
      ⟨hs.past, hs.fresh, ?_, hs.ready⟩)
    · rw [hC.mmp] at hbody
      exact Watched.length_le_of_buildSenderReport hbody
    · rw [hC.mmp]
      exact hs.mmp.buildSenderReport due
  · exact hs

theorem maintains_senderReportIfDueXx (due : ℕ) :
    Maintains (SoundAt C t) (senderReportIfDueXx C due) := by
  refine .get_bind fun s hs => ?_
  split
  · refine Maintains.bind ?_ (fun _ => ?_) s hs
    · rw [senderReportXx]
      split
      · refine .get_bind fun s hs => .set_bind (maintains_sendReport hC _ (fun body hbody => ?_) _
          ⟨hs.past, hs.fresh, ?_, hs.ready⟩)
        · rw [hC.mmp] at hbody
          exact Watched.length_le_of_buildSenderReport hbody
        · rw [hC.mmp]
          exact hs.mmp.buildSenderReport due
      · exact .pure _
    · exact maintains_modify fun _ => rfl
  · exact hs

/-- The receiver report is built at the time that was read before anything was sent. -/
theorem maintains_receiverReportIfDueXx : Maintains (SoundAt C t) (receiverReportIfDueXx C t) := by
  refine .get_bind fun s hs => ?_
  split
  · refine .set_bind ((maintains_sendReport hC _ (fun body hbody => ?_)).bind (fun _ => ?_) _
      ⟨hs.past, hs.fresh, ?_, hs.ready⟩)
    · rw [hC.mmp] at hbody
      exact Watched.length_le_of_buildReceiverReport hbody
    · exact maintains_modify fun _ => rfl
    · rw [hC.mmp]
      exact hs.mmp.buildReceiverReport
  · exact hs

theorem maintains_plainReportIfDue (due : ℕ) :
    Maintains (SoundAt C t) (plainReportIfDue C due) := by
  refine .get_bind fun s hs => ?_
  split
  · refine .set_bind ?_
    split
    · exact maintains_sendPlainReport hC _ _ (hs.congr rfl)
    · exact hs.congr rfl
  · exact hs

theorem maintains_reportsIfDue : Maintains (SoundAt C t) (reportsIfDue C t) := by
  rw [reportsIfDue]
  split
  · exact maintains_senderReportIfDueIk hC _
  · exact (maintains_senderReportIfDueXx hC _).bind fun _ => maintains_receiverReportIfDueXx hC
  · exact maintains_plainReportIfDue hC _

theorem maintains_tickIfDue (tick : Option ℕ) (due : ℕ) :
    Maintains (SoundAt C t) (tickIfDue C tick due) := by
  cases tick with
  | none => exact .pure _
  | some deadline =>
      rw [tickIfDue]
      split
      · refine (maintains_ask _).bind fun now => .get_bind fun s hs => .set_bind ?_
        have hdata := hC.onTick now s.handler
        split
        · rename_i data hdatagram
          exact maintains_sendLinkMessage hC _ (hdata data hdatagram) _
            (hs.congr rfl)
        · exact hs.congr rfl
      · exact .pure _

theorem maintains_afterFrames (tick : Option ℕ) : Maintains (Sound C) (afterFrames C tick) :=
  maintains_now_bind hC fun t => (maintains_heartbeatIfDue hC t).bind fun _ =>
    (maintains_reportsIfDue hC).bind fun _ => maintains_tickIfDue hC tick t

theorem maintains_onBuffer (tick : Option ℕ) : Maintains (Sound C) (onBuffer C tick) := by
  refine .get_bind fun s hs => (maintains_handleFrames hC _).bind (fun _ => ?_) s hs
  refine Maintains.bind (.modify ?_) fun _ => maintains_afterFrames hC tick
  rintro s ⟨t, hs⟩
  split <;> exact ⟨t, hs.congr rfl⟩

theorem maintains_onRecv (tick : Option ℕ) {chunk : Bytes}
    (hchunk : chunk.length ≤ recvBufSize) : Maintains (Sound C) (onRecv C tick chunk) := by
  rintro s ⟨t, hs⟩
  have hbuf : ∀ rbuf rpos, Sound C { s with rbuf := rbuf, rpos := rpos } :=
    fun rbuf rpos => ⟨t, hs.congr rfl⟩
  refine .get_bind ?_
  rw [if_neg (Nat.not_lt.mpr hchunk)]
  split
  · exact .set_bind (maintains_onBuffer hC tick _ (hbuf _ _))
  · split
    · exact hbuf _ _
    · exact .set_bind (maintains_onBuffer hC tick _ (hbuf _ _))

/-! ## The timer -/

theorem maintains_timerCutover (now : ℕ) : Maintains (SoundAt C t) (timerCutover C now) := by
  refine .get_bind fun s hs => ?_
  split
  · refine (maintains_promote _).bind (fun _ => ?_) s hs
    refine .bind (maintains_modify fun _ => rfl) fun _ => ?_
    exact maintains_afterPromotion hC _ _
  · exact hs

omit hC in
theorem maintains_rekeyIfTriggered (now : ℕ) :
    Maintains (SoundAt C t) (rekeyIfTriggered C now) := by
  refine .get_bind fun s hs => ?_
  split
  · refine maintains_initiateRekey.bind (fun r => ?_) s hs
    split
    · exact .pure _
    · refine .bind (maintains_modify fun _ => rfl) fun _ => ?_
      exact maintains_note _
  · exact hs

omit hC in
theorem maintains_resendOrAbandon (now : ℕ) : Maintains (SoundAt C t) (resendOrAbandon C now) := by
  refine .get_bind fun s hs => ?_
  split
  · exact hs
  · split
    · split
      · exact hs.congr rfl
      · refine (maintains_sendFrame _).bind (fun _ => ?_) s hs
        exact maintains_modify fun _ => rfl
    · exact hs

omit hC in
theorem maintains_sweep (now : ℕ) : Maintains (SoundAt C t) (sweep now) := by
  refine .modify fun s hs => ?_
  split
  · exact hs.congr rfl
  · exact hs

theorem maintains_heartbeatOrLeave (due : ℕ) :
    Maintains (SoundAt C t) (heartbeatOrLeave C due) := by
  refine (maintains_heartbeatIfDue hC due).bind fun beat => ?_
  split
  · refine (maintains_ask _).bind fun now => .get_bind fun s hs => ?_
    split
    · exact (maintains_sendDisconnect hC _).bind (fun _ => .throw_err _) s hs
    · exact hs
  · exact .pure _

theorem maintains_onTimer (tick : Option ℕ) : Maintains (Sound C) (onTimer C tick) := by
  refine maintains_now_bind hC fun t => (maintains_timerCutover hC t).bind fun _ => ?_
  refine (maintains_rekeyIfTriggered t).bind fun _ => (maintains_resendOrAbandon t).bind fun _ => ?_
  refine (maintains_sweep t).bind fun _ => (maintains_heartbeatOrLeave hC t).bind fun _ => ?_
  exact (maintains_reportsIfDue hC).bind fun _ => maintains_tickIfDue hC tick t

/-! ## Runs -/

theorem maintains_iteration {input : Input}
    (hinput : ∀ chunk, input = .recv chunk → chunk.length ≤ recvBufSize) :
    Maintains (Sound C) (iteration C input) := by
  refine Maintains.bind (.of_forall fun _ => ?_) fun _ => .get_bind fun s hs => ?_
  · refine (maintains_ask _).bind fun now => .get_bind fun s hs => ?_
    split
    · exact (maintains_sendDisconnect hC _).bind (fun _ => .throw_err _) s hs
    · exact hs
  · cases input with
    | recv chunk => exact maintains_onRecv hC _ (hinput chunk rfl) s hs
    | recvError =>
        exact Maintains.of_forall
          (fun _ => (maintains_sendDisconnect hC _).bind fun _ => .throw_err _) s hs
    | timer => exact maintains_onTimer hC _ s hs

theorem maintains_run {inputs : List Input}
    (hinputs : ∀ chunk, .recv chunk ∈ inputs → chunk.length ≤ recvBufSize) :
    Maintains (Sound C) (run C inputs) := by
  induction inputs with
  | nil => exact .pure _
  | cons input inputs ih =>
      refine Maintains.bind (maintains_iteration hC fun chunk hchunk => ?_) fun _ => ih ?_
      · exact hinputs chunk (hchunk ▸ List.mem_cons_self)
      · exact fun chunk hchunk => hinputs chunk (List.mem_cons_of_mem _ hchunk)

end Regular

end Steady
end Node
end Microfips

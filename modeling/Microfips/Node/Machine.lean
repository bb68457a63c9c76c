import Microfips.Node.Opening
import Microfips.Node.Outcome

/-!
# The rekey machine

What a steady session does with its epochs, its rekeys and its frames, without the clock, the
buffers and the measurements.  A `Move` is one step of it; those of the handling of a frame name
the frame.  Every pass of the loop of `steady` is simulated by moves.
-/

namespace Microfips
namespace Node

open Noise Wire

structure NodeView where
  cur : EpochSlot
  pend : Option EpochSlot
  prev : Option EpochSlot
  pendSelf : Bool
  rekeyInit : Option RekeyInit
  rekeyHs : Option RekeyHs
  lastRekeyMsg1 : Option Bytes
  lastRekeyMsg2 : Option Bytes
  trace : List Event

def NodeView.log (v : NodeView) (events : List Event) : NodeView :=
  { v with trace := events ++ v.trace }

def EpochSlot.spent (slot : EpochSlot) : EpochSlot :=
  { slot with sendCtr := slot.sendCtr + 1 }

@[simp]
theorem EpochSlot.spent_ks (slot : EpochSlot) : slot.spent.ks = slot.ks :=
  rfl

@[simp]
theorem EpochSlot.spent_kr (slot : EpochSlot) : slot.spent.kr = slot.kr :=
  rfl

def sentEvents (sent : Bool) (frame : Bytes) : List Event :=
  if sent then [.frame (.sent frame)] else []

variable {H M : Type} (C : Config H M)

def namedIndex (build : Build) (frame : Bytes) : Option SessionIndex :=
  match parseMessage build frame with
  | some (.msg2 _ receiverIdx _) => some receiverIdx
  | _ => none

theorem parse_of_namedIndex {build : Build} {frame : Bytes} {index : SessionIndex}
    (h : namedIndex build frame = some index) :
    ∃ senderIdx np, parseMessage build frame = some (.msg2 senderIdx index np) := by
  rw [namedIndex] at h
  split at h
  · rename_i hparse
    obtain rfl := Option.some.inj h
    exact ⟨_, _, hparse⟩
  · cases h

/-- One move of the rekey machine, while the frame `input` is handled if there is one. -/
inductive Move (input : Option Bytes) : NodeView → NodeView → Prop where
  /-- A counter is taken and not used. -/
  | spend (v : NodeView) :
      Move input v { v with
        cur := v.cur.spent
        trace := .key (.took v.cur.ks v.cur.sendCtr) :: v.trace }
  /-- A frame is sealed under the next counter, and sent if the transport takes it. -/
  | sealFrame {v : NodeView} {inner frame : Bytes} {flags : UInt8} (sent : Bool)
      (hframe : encryptAndAssemble C.suite C.build v.cur.them v.cur.sendCtr flags inner v.cur.ks
        256 = some frame) :
      Move input v { v with
        cur := v.cur.spent
        trace := sentEvents sent frame ++ .key (.sealed v.cur.ks v.cur.sendCtr) ::
          .key (.took v.cur.ks v.cur.sendCtr) :: v.trace }
  /-- A frame is received that no slot opens and that is no answer to our rekey. -/
  | hear {v : NodeView} {frame : Bytes} (hinput : input = some frame)
      (hopens : ∀ kr c, ¬ Opens C.suite C.build kr frame c)
      (hnames : ∀ ri ∈ v.rekeyInit, namedIndex C.build frame ≠ some ri.ourIndex) :
      Move input v { v with trace := .frame (.received frame) :: v.trace }
  /-- The msg1 that was answered last comes again. -/
  | repeatMsg2 {v : NodeView} {frame msg2 : Bytes} (sent : Bool) (hinput : input = some frame)
      (hmsg1 : v.lastRekeyMsg1 = some (frame.take 128)) (hmsg2 : v.lastRekeyMsg2 = some msg2) :
      Move input v { v with trace := sentEvents sent msg2 ++ v.trace }
  /-- A msg1 of the IK build is answered: the new epoch is armed. -/
  | answerIk {v : NodeView} {frame np msg2 : Bytes} {senderIdx ourIndex : SessionIndex}
      {eph ks kr : Block 32} (sent : Bool) (hinput : input = some frame) (hbuild : C.build = .ik)
      (hparse : parseMessage C.build frame = some (.msg1 senderIdx np))
      (hmsg1 : v.lastRekeyMsg1 ≠ some (frame.take 128))
      (hanswer : ikAnswer C senderIdx (np.take 128) eph ourIndex = some ((ks, kr), msg2)) :
      Move input v { v with
        pend := some (EpochSlot.new ks kr senderIdx (!v.cur.kBit) .peer)
        lastRekeyMsg1 := some (frame.take 128)
        lastRekeyMsg2 := some msg2
        trace := .key (.armed .peer ks kr v.pendSelf) :: (sentEvents sent msg2 ++ v.trace) }
  /-- A msg1 of the XX build is answered: the responder waits for msg3. -/
  | answerXx {v : NodeView} {frame np msg2 : Bytes} {senderIdx ourIndex : SessionIndex}
      {eph : Block 32} {hs : RekeyHs} (sent : Bool) (hinput : input = some frame)
      (hbuild : C.build = .xx) (hparse : parseMessage C.build frame = some (.msg1 senderIdx np))
      (hmsg1 : v.lastRekeyMsg1 ≠ some (frame.take 128))
      (hanswer : xxAnswer C senderIdx (np.take 128) eph ourIndex = some (hs, msg2)) :
      Move input v { v with
        rekeyHs := some hs
        lastRekeyMsg1 := some (frame.take 128)
        lastRekeyMsg2 := some msg2
        trace := sentEvents sent msg2 ++ v.trace }
  /-- The msg3 that the responder waits for is accepted: the new epoch is armed. -/
  | acceptMsg3 {v : NodeView} {frame np : Bytes} {senderIdx receiverIdx : SessionIndex}
      {hs : RekeyHs} {ks kr : Block 32} (hinput : input = some frame) (hbuild : C.build = .xx)
      (hparse : parseMessage C.build frame = some (.msg3 senderIdx receiverIdx np))
      (hhs : v.rekeyHs = some hs) (haccept : xxAccept C hs np = some (ks, kr)) :
      Move input v { v with
        rekeyHs := none
        pend := some (EpochSlot.new ks kr hs.theirIdx (!v.cur.kBit) .peer)
        trace := .key (.armed .peer ks kr v.pendSelf) :: .frame (.received frame) :: v.trace }
  /-- It is not accepted, and the responder is gone. -/
  | refuseMsg3 {v : NodeView} {frame np : Bytes} {senderIdx receiverIdx : SessionIndex}
      {hs : RekeyHs} (hinput : input = some frame) (hbuild : C.build = .xx)
      (hparse : parseMessage C.build frame = some (.msg3 senderIdx receiverIdx np))
      (hhs : v.rekeyHs = some hs) (haccept : xxAccept C hs np = none) :
      Move input v { v with
        rekeyHs := none
        trace := .frame (.received frame) :: v.trace }
  /-- A msg2 completes the rekey of our own: the new epoch is armed. -/
  | completeMsg2 {v : NodeView} {frame np : Bytes} {senderIdx : SessionIndex} {ri : RekeyInit}
      {ks kr : Block 32} {frames : List Bytes} (hinput : input = some frame)
      (hparse : parseMessage C.build frame = some (.msg2 senderIdx ri.ourIndex np))
      (hri : v.rekeyInit = some ri)
      (hcompletion : completion C ri senderIdx (np.take 128) = some ((ks, kr), frames)) :
      Move input v { v with
        rekeyInit := none
        pend := some (EpochSlot.new ks kr senderIdx (!v.cur.kBit) .own)
        pendSelf := true
        trace := .key (.armed .own ks kr v.pendSelf) ::
          (frames.map (fun frame => .frame (.sent frame)) ++ .frame (.received frame) :: v.trace) }
  /-- It does not, and the rekey is given up. -/
  | failMsg2 {v : NodeView} {frame np : Bytes} {senderIdx : SessionIndex} {ri : RekeyInit}
      (hinput : input = some frame)
      (hparse : parseMessage C.build frame = some (.msg2 senderIdx ri.ourIndex np))
      (hri : v.rekeyInit = some ri) :
      Move input v { v with
        rekeyInit := none
        trace := .frame (.received frame) :: v.trace }
  /-- A frame is received that no slot gives a message for. -/
  | miss {v : NodeView} {frame : Bytes} {cur : EpochSlot} {pend prev : Option EpochSlot}
      (hinput : input = some frame)
        (hnames : ∀ ri ∈ v.rekeyInit, namedIndex C.build frame ≠ some ri.ourIndex)
      (hcur : v.cur.Trial C frame none cur) (hpend : Missed C frame v.pend pend)
      (hprev : Missed C frame v.prev prev) :
      Move input v { v with
        cur := cur
        pend := pend
        prev := prev
        trace := .frame (.received frame) :: v.trace }
  /-- The current slot opens a frame. -/
  | openCur {v : NodeView} {frame : Bytes} {c : UInt64} {cur : EpochSlot}
      {pend : Option EpochSlot} (hinput : input = some frame)
      (hcur : v.cur.Took C frame c cur) (hpend : pend = v.pend ∨ Missed C frame v.pend pend) :
      Move input v { v with
        cur := cur
        pend := pend
        trace := .key (.dispatched cur.kr c) :: .frame (.received frame) :: v.trace }
  /-- The pending slot opens a frame and is promoted. -/
  | openPend {v : NodeView} {frame : Bytes} {c : UInt64} {cur old slot : EpochSlot}
      (hinput : input = some frame) (hcur : cur = v.cur ∨ v.cur.Trial C frame none cur)
      (hpend : v.pend = some old) (hopen : old.Took C frame c slot) :
      Move input v { v with
        cur := slot
        pend := none
        prev := some cur
        trace := .key (.dispatched slot.kr c) ::
          .key (.cutover slot.origin slot.kr (.proof frame)) :: .frame
            (.received frame) :: v.trace }
  /-- The previous slot opens a frame. -/
  | openPrev {v : NodeView} {frame : Bytes} {c : UInt64} {cur old slot : EpochSlot}
      {pend : Option EpochSlot} (hinput : input = some frame)
      (hcur : v.cur.Trial C frame none cur) (hpend : Missed C frame v.pend pend)
      (hprev : v.prev = some old) (hopen : old.Took C frame c slot) :
      Move input v { v with
        cur := cur
        pend := pend
        prev := some slot
        trace := .key (.dispatched slot.kr c) :: .frame (.received frame) :: v.trace }
  /-- The trial decryption panics. -/
  | abort {v : NodeView} {frame : Bytes} {cur : EpochSlot} {pend : Option EpochSlot}
      (hinput : input = some frame) (hcur : cur = v.cur ∨ v.cur.Trial C frame none cur)
      (hpend : pend = v.pend ∨ Missed C frame v.pend pend) :
      Move input v { v with cur := cur, pend := pend }
  /-- The timer promotes the pending slot. -/
  | cutover {v : NodeView} {slot : EpochSlot} (hinput : input = none)
      (hself : v.pendSelf = true) (hpend : v.pend = some slot) :
      Move input v { v with
        cur := slot
        pend := none
        prev := some v.cur
        pendSelf := false
        trace := .key (.cutover slot.origin slot.kr .timer) :: v.trace }
  /-- The timer begins a rekey of our own. -/
  | beginRekey {v : NodeView} {ri : RekeyInit} {eph : Block 32} (hinput : input = none)
      (hri : v.rekeyInit = none) (hpend : v.pend = none)
      (hbegun : begun C eph ri.ourIndex = some (ri.hs, ri.msg1)) :
      Move input v { v with
        rekeyInit := some ri
        trace := .frame (.began ri.ourIndex) :: .frame (.sent ri.msg1) :: v.trace }
  /-- The timer sends msg1 once more. -/
  | resendMsg1 {v : NodeView} {ri : RekeyInit} (resends nextResendAt : ℕ) (sent : Bool)
      (hinput : input = none) (hri : v.rekeyInit = some ri) :
      Move input v { v with
        rekeyInit := some { ri with resends := resends, nextResendAt := nextResendAt }
        trace := sentEvents sent ri.msg1 ++ v.trace }
  /-- The timer gives the rekey up. -/
  | abandon (v : NodeView) (hinput : input = none) : Move input v { v with rekeyInit := none }
  /-- The timer retires the previous slot. -/
  | drain (v : NodeView) (hinput : input = none) : Move input v { v with prev := none }

abbrev Moves (input : Option Bytes) : NodeView → NodeView → Prop :=
  Relation.ReflTransGen (Move C input)

namespace Steady

def view (s : Steady H M) : NodeView where
  cur := s.cur
  pend := s.pend
  prev := s.prev
  pendSelf := s.pendSelf
  rekeyInit := s.rekeyInit
  rekeyHs := s.rekeyHs
  lastRekeyMsg1 := s.lastRekeyMsg1
  lastRekeyMsg2 := s.lastRekeyMsg2
  trace := s.trace

theorem view_ignoresCalls : IgnoresCalls (view : Steady H M → NodeView) :=
  fun _ _ => rfl

abbrev Simulated (input : Option Bytes) {α : Type} (m : Action H M α) : Prop :=
  EStateM.Simulated view (Move C input) m

abbrev Silent {α : Type} (m : Action H M α) : Prop :=
  EStateM.Silent view m

variable {input : Option Bytes}

variable {α : Type} {frame np : Bytes} {senderIdx : SessionIndex} {s : Steady H M}

theorem simulated_ask (answer : ℕ → α) : Simulated C input (ask answer) :=
  (silent_ask view_ignoresCalls answer).simulated

theorem silent_sendParts (payload : Bytes) : Silent (sendParts C payload) := by
  rw [sendParts]
  split
  · exact silent_ask view_ignoresCalls _
  · refine (silent_ask view_ignoresCalls _).bind fun ok => ?_
    split
    · exact silent_ask view_ignoresCalls _
    · exact .pure _

theorem sendFrame_run (payload : Bytes) (s : Steady H M) :
    ∃ sent t, (sendFrame C payload).run s = .ok sent t ∧
      t.view = s.view.log (sentEvents sent payload) := by
  obtain ⟨ok, t, hrun, hview⟩ := silent_sendParts C payload s
  rw [sendFrame, EStateM.run_bind_ok hrun]
  cases ok with
  | false => exact ⟨false, t, rfl, hview⟩
  | true => exact ⟨true, _, rfl, congrArg (·.log [.frame (.sent payload)]) hview⟩

theorem silent_refresh : Silent (refresh C) :=
  fun _ => ⟨_, _, rfl, rfl⟩

theorem silent_recordSent (c : UInt64) (ts : UInt32) (bytes : ℕ) :
    Silent (recordSent C c ts bytes) := by
  rw [recordSent]
  split
  · exact .modify fun _ => rfl
  · exact .pure _

variable (input) in
theorem sealAndSend_moves (msg : Bytes) (innerLen : ℕ) (s : Steady H M) :
    ∃ sealed t, (sealAndSend C s.cur.sendCtr msg innerLen).run { s with
        cur := s.cur.spent
        trace := .key (.took s.cur.ks s.cur.sendCtr) :: s.trace } = .ok sealed t ∧
      Moves C input s.view t.view := by
  have hspend : Moves C input s.view { s.view with
      cur := s.cur.spent
      trace := .key (.took s.cur.ks s.cur.sendCtr) :: s.trace } := .single (.spend s.view)
  rw [sealAndSend, run_now_bind]
  split
  · exact ⟨_, _, rfl, hspend⟩
  · rw [EStateM.run_get_bind]
    split
    · exact ⟨_, _, rfl, hspend⟩
    · rename_i frame hframe
      rw [run_emit_bind]
      obtain ⟨sent, t, hrun, hview⟩ := sendFrame_run C frame { s with
        cur := s.cur.spent
        calls := s.calls + 1
        trace := .key (.sealed s.cur.ks s.cur.sendCtr) ::
          .key (.took s.cur.ks s.cur.sendCtr) :: s.trace }
      obtain ⟨_, u, hrun', hview'⟩ := silent_recordSent C s.cur.sendCtr
        (UInt32.ofNat (asMillis (C.world.clock s.calls))) frame.length t
      refine ⟨true, u, ?_, ?_⟩
      · exact (EStateM.run_bind_ok hrun).trans (EStateM.run_bind_ok hrun')
      · rw [hview', hview]
        exact .single (.sealFrame sent hframe)

theorem takeCounter_run (s : Steady H M) :
    takeCounter.run s = .ok s.cur.sendCtr { s with
      cur := s.cur.spent
      trace := .key (.took s.cur.ks s.cur.sendCtr) :: s.trace } :=
  rfl

theorem simulated_sendLinkMessage (msgType : UInt8) (body : Bytes) :
    Simulated C input (sendLinkMessage C msgType body) := by
  intro s
  rw [EStateM.SimulatedAt, sendLinkMessage, EStateM.run_bind_ok (takeCounter_run s)]
  split
  · exact .single (.spend s.view)
  · obtain ⟨sealed, t, hrun, hmoves⟩ := sealAndSend_moves C input (msgType :: body) 512 s
    rw [EStateM.run_bind_ok hrun]
    split
    · exact hmoves
    · exact hmoves

theorem simulated_sendHeartbeat : Simulated C input (sendHeartbeat C) := by
  intro s
  obtain ⟨sealed, t, hrun, hmoves⟩ := sealAndSend_moves C input [msgHeartbeat] 32 s
  rw [EStateM.SimulatedAt, sendHeartbeat, EStateM.run_bind_ok (takeCounter_run s),
    EStateM.run_bind_ok hrun]
  exact hmoves

theorem simulated_sendDisconnect (reason : UInt8) :
    Simulated C input (sendDisconnect C reason) := by
  intro s
  obtain ⟨sealed, t, hrun, hmoves⟩ := sealAndSend_moves C input [msgDisconnect, reason] 32 s
  rw [EStateM.SimulatedAt, sendDisconnect, EStateM.run_bind_ok (takeCounter_run s),
    EStateM.run_bind_ok hrun]
  exact hmoves

/-! ## Rekeys -/

/-- What beginning a rekey does: nothing, or its msg1 is sent. -/
def Began (v : NodeView) (r : Option RekeyInit) (w : NodeView) : Prop :=
  match r with
  | none => w = v
  | some ri => (∃ eph, begun C eph ri.ourIndex = some (ri.hs, ri.msg1)) ∧
      w = v.log [.frame (.sent ri.msg1)]

theorem acts_sendRekeyMsg1 {n1 : Bytes} {hs : LinkInitiator}
    (h : ∀ index msg1, buildMsg1 C.build index n1 256 = some msg1 →
      ∃ eph, begun C eph index = some (hs, msg1)) :
    EStateM.Acts view (Began C) (sendRekeyMsg1 C n1 hs) := by
  refine (yields_ask view_ignoresCalls _).acts_bind fun index _ => ?_
  split
  · exact .pure fun _ => rfl
  · rename_i msg1 hmsg1
    intro s
    obtain ⟨sent, t, hrun, hview⟩ := sendFrame_run C msg1 s
    rw [EStateM.run_bind_ok hrun]
    cases sent with
    | false => exact hview
    | true => exact ⟨h index msg1 hmsg1, hview⟩

theorem acts_initiateRekey : EStateM.Acts view (Began C) (initiateRekey C) := by
  rw [initiateRekey]
  split
  · rename_i hbuild
    split
    · exact .pure fun _ => rfl
    · rename_i myPub hpub
      refine (yields_ask view_ignoresCalls _).acts_bind fun eph _ => ?_
      split
      · exact .pure fun _ => rfl
      · rename_i hs _ hnew
        refine (yields_attempt _ _).acts_bind fun r hr => ?_
        split
        · exact .pure fun _ => rfl
        · refine acts_sendRekeyMsg1 C fun index msg1 hmsg1 => ⟨eph, ?_⟩
          rw [hbuild] at hmsg1
          simp [begun, hbuild, hpub, hnew, ← hr, hmsg1]
  · rename_i hbuild
    refine (yields_ask view_ignoresCalls _).acts_bind fun eph _ => ?_
    split
    · exact .pure fun _ => rfl
    · rename_i hs _ hnew
      refine (yields_attempt _ _).acts_bind fun r hr => ?_
      split
      · exact .pure fun _ => rfl
      · refine acts_sendRekeyMsg1 C fun index msg1 hmsg1 => ⟨eph, ?_⟩
        rw [hbuild] at hmsg1
        simp [begun, hbuild, hnew, ← hr, hmsg1]

/-- What completing a rekey does: nothing, or msg3 is sent where there is one. -/
def Completed (ri : RekeyInit) (senderIdx : SessionIndex) (np : Bytes) (v : NodeView)
    (r : Option (Option (Block 32 × Block 32))) (w : NodeView) : Prop :=
  match r with
  | some (some keys) => ∃ frames, completion C ri senderIdx np = some (keys, frames) ∧
      w = v.log (frames.map fun frame => .frame (.sent frame))
  | _ => w = v

theorem acts_complete (ri : RekeyInit) (senderIdx : SessionIndex) (np : Bytes) :
    EStateM.Acts view (Completed C ri senderIdx np) (complete C ri senderIdx np) := by
  rw [complete]
  split
  · rename_i hs hhs
    refine (yields_completeIk C hs np).acts_bind fun r hr => .pure fun v => ?_
    subst hr
    cases h : ((NoiseIkInitiator.readMessage2 C.suite np).call hs).toOption with
    | none => exact rfl
    | some r => exact ⟨[], by simp [completion, hhs, h], rfl⟩
  · rename_i hs hhs
    refine (yields_attempt _ _).acts_bind fun r hr => ?_
    split
    · exact .pure fun _ => rfl
    · split
      · rename_i hpin
        split
        · exact .pure fun _ => rfl
        · rename_i myPub hpub
          refine (yields_attempt _ _).acts_bind fun r' hr' => ?_
          split
          · exact .pure fun _ => rfl
          · split
            · exact .pure fun _ => rfl
            · rename_i msg3 hmsg3
              intro s
              obtain ⟨sent, t, hrun, hview⟩ := sendFrame_run C msg3 s
              rw [EStateM.run_bind_ok hrun]
              cases sent with
              | false => exact hview
              | true =>
                  refine ⟨[msg3], ?_, hview⟩
                  simp [completion, hhs, ← hr, hpin, hpub, ← hr', hmsg3]
      · exact .pure fun _ => rfl

theorem not_opens_of_parse {msg : FmpMessage} (hparse : parseMessage C.build frame = some msg)
    (hmsg : ∀ receiverIdx counter encrypted, msg ≠ .established receiverIdx counter encrypted)
    (kr : Block 32) (c : UInt64) : ¬ Opens C.suite C.build kr frame c := by
  intro hopens
  rw [Opens, openedCounter] at hopens
  split at hopens
  · cases hopens
  · rename_i henc
    obtain ⟨receiverIdx, counter, encrypted, hparse'⟩ := parseMessage_of_parse henc
    exact hmsg _ _ _ (Option.some.inj (hparse.symm.trans hparse'))

theorem simulatedAt_answerMsg1 (hparse : parseMessage C.build frame = some (.msg1 senderIdx np))
    (hmsg1 : s.view.lastRekeyMsg1 ≠ some (frame.take 128)) :
    EStateM.SimulatedAt view (Move C (some frame)) s
      (answerMsg1 C senderIdx (np.take 128) (frame.take 128)) := by
  rw [answerMsg1]
  split
  · rename_i hbuild
    refine EStateM.SimulatedAt.get_bind ?_
    refine (yields_answerRekeyMsg1Ik C view_ignoresCalls senderIdx _ s.cur.kBit).simulatedAt_bind ?_
    intro r t hr hview
    split
    · exact .pure _ _
    · rename_i slot msg2
      obtain ⟨eph, ourIndex, ks, kr, hanswer, rfl⟩ := hr _ rfl
      obtain ⟨sent, u, hrun, hsent⟩ := sendFrame_run C msg2 t
      rw [EStateM.SimulatedAt, EStateM.run_bind_ok hrun, hview]
      change Moves C _ s.view { u.view with
        pend := some (EpochSlot.new ks kr senderIdx (!s.cur.kBit) .peer)
        lastRekeyMsg1 := some (frame.take 128)
        lastRekeyMsg2 := some msg2
        trace := .key (.armed .peer ks kr u.view.pendSelf) :: u.view.trace }
      rw [hsent, hview]
      exact .single (.answerIk sent rfl hbuild hparse hmsg1 hanswer)
  · rename_i hbuild
    refine (yields_beginRekeyXx C view_ignoresCalls senderIdx _).simulatedAt_bind ?_
    intro r t hr hview
    split
    · exact .pure _ _
    · rename_i hs msg2
      obtain ⟨eph, ourIndex, hanswer⟩ := hr _ rfl
      obtain ⟨sent, u, hrun, hsent⟩ := sendFrame_run C msg2 t
      rw [EStateM.SimulatedAt, EStateM.run_bind_ok hrun, hview]
      change Moves C _ s.view { u.view with
        rekeyHs := some hs
        lastRekeyMsg1 := some (frame.take 128)
        lastRekeyMsg2 := some msg2 }
      rw [hsent, hview]
      exact .single (.answerXx sent rfl hbuild hparse hmsg1 hanswer)

theorem simulatedAt_resendMsg2 (hmsg1 : s.lastRekeyMsg1 = some (frame.take 128)) :
    EStateM.SimulatedAt view (Move C (some frame)) s (resendMsg2 C) := by
  refine EStateM.SimulatedAt.get_bind ?_
  split
  · exact .pure _ _
  · rename_i msg2 hmsg2
    obtain ⟨sent, t, hrun, hsent⟩ := sendFrame_run C msg2 s
    rw [EStateM.SimulatedAt, EStateM.run_bind_ok hrun]
    change Moves C _ s.view t.view
    rw [hsent]
    exact .single (.repeatMsg2 sent rfl hmsg1 hmsg2)

theorem silent_notePeerRekey : Silent (notePeerRekey C) :=
  fun _ => ⟨_, _, rfl, rfl⟩

theorem simulated_handleMsg1 (hparse : parseMessage C.build frame = some (.msg1 senderIdx np)) :
    Simulated C (some frame) (handleMsg1 C frame senderIdx np) := by
  intro s
  have hopens := not_opens_of_parse C hparse (by simp)
  have hnames : ∀ ri ∈ s.rekeyInit, namedIndex C.build frame ≠ some ri.ourIndex := by
    simp [namedIndex, hparse]
  refine EStateM.SimulatedAt.modify_bind (.single (.hear rfl hopens hnames)) ?_
  refine EStateM.SimulatedAt.get_bind ?_
  split
  · rename_i hdup
    exact (simulatedAt_resendMsg2 C hdup).bind fun _ _ _ => (silent_notePeerRekey C).simulated _
  · rename_i hnew
    refine (yields_freshOk C view_ignoresCalls).simulatedAt_bind fun ok t _ hview => ?_
    split
    · refine (yields_ask view_ignoresCalls _).simulatedAt_bind fun now u _ hview' => ?_
      refine EStateM.SimulatedAt.modify_bind .refl ?_
      have hmsg1 : u.view.lastRekeyMsg1 ≠ some (frame.take 128) := by
        rw [hview', hview]
        exact hnew
      refine EStateM.SimulatedAt.bind (simulatedAt_answerMsg1 C hparse ?_) fun answered _ _ => ?_
      · exact hmsg1
      · split
        · exact (silent_notePeerRekey C).simulated _
        · exact .pure _ _
    · exact .pure _ _

theorem attempt_run {σ : Type} {m : EStateM (Fault NoiseError) σ α} {object : σ} {r : α × σ}
    (h : m.call object = .ok r) (s : Steady H M) : (attempt m object).run s = .ok (some r) s := by
  rw [attempt, h]
  rfl

theorem simulatedAt_handleMsg3 {receiverIdx : SessionIndex} {hs : RekeyHs} (hbuild : C.build = .xx)
    (hparse : parseMessage C.build frame = some (.msg3 senderIdx receiverIdx np))
    (hhs : s.rekeyHs = some hs) :
    EStateM.SimulatedAt view (Move C (some frame)) s (handleMsg3 C frame np hs) := by
  have hrefuse (h : xxAccept C hs np = none) : Moves C (some frame) s.view { s.view with
      rekeyHs := none
      trace := .frame (.received frame) :: s.trace } :=
    .single (.refuseMsg3 rfl hbuild hparse hhs h)
  rw [EStateM.SimulatedAt, handleMsg3, EStateM.run_modify_bind,
    run_note_bind]
  cases hcall : (NoiseXxResponder.readMessage3 C.suite np).call hs.responder with
  | error e =>
      rw [attempt, hcall]
      have hnone : xxAccept C hs np = none := by simp [xxAccept, hcall, Except.toOption]
      cases e with
      | err e => exact hrefuse hnone
      | panic => exact hrefuse hnone
  | ok r =>
      obtain ⟨⟨initPub, initEpoch⟩, responder⟩ := r
      rw [EStateM.run_bind_ok (attempt_run hcall _)]
      dsimp only
      split
      · rename_i hpin
        exact .single (.acceptMsg3 rfl hbuild hparse hhs (by simp [xxAccept, hcall, hpin]))
      · rename_i hpin
        exact hrefuse (by simp [xxAccept, hcall, hpin])

theorem simulatedAt_handleMsg2 {receiverIdx : SessionIndex} {ri : RekeyInit}
    (hparse : parseMessage C.build frame = some (.msg2 senderIdx receiverIdx np))
    (hri : s.rekeyInit = some ri) :
    EStateM.SimulatedAt view (Move C (some frame)) s
      (handleMsg2 C frame senderIdx receiverIdx np ri) := by
  rw [handleMsg2]
  split
  · rename_i hne
    have hopens := not_opens_of_parse C hparse (by simp)
    refine EStateM.SimulatedAt.modify_bind (.single (.hear rfl hopens ?_))
      ((silent_refresh C).simulated _)
    intro ri' hri'
    obtain rfl := Option.some.inj (hri.symm.trans hri')
    simpa [namedIndex, hparse] using hne
  · rename_i heq
    obtain rfl : receiverIdx = ri.ourIndex := not_not.mp heq
    have hfail : Moves C (some frame) s.view { s.view with
        rekeyInit := none
        trace := .frame (.received frame) :: s.trace } :=
      .single (.failMsg2 rfl hparse hri)
    rw [EStateM.SimulatedAt, EStateM.run_modify_bind,
      run_note_bind]
    refine EStateM.Acts.moves_bind (acts_complete C ri senderIdx _) hfail fun r t ht => ?_
    split
    · exact ht ▸ hfail
    · exact ht ▸ hfail
    · rename_i keys
      obtain ⟨frames, hcompletion, hview⟩ := ht
      change Moves C _ s.view { t.view with
        pend := some (EpochSlot.new keys.1 keys.2 senderIdx (!t.view.cur.kBit) .own)
        pendSelf := true
        trace := .key (.armed .own keys.1 keys.2 t.view.pendSelf) :: t.view.trace }
      rw [hview]
      exact .single (.completeMsg2 rfl hparse hri hcompletion)

/-! ## Established frames -/

theorem silent_resetMmp : Silent (resetMmp C) := by
  rw [resetMmp]
  split
  · exact fun _ => ⟨_, _, rfl, rfl⟩
  · exact .pure _

theorem silent_afterPromotion (drainBase started : ℕ) :
    Silent (afterPromotion C drainBase started) := by
  refine EStateM.Silent.bind (.modify fun _ => rfl) fun _ => ?_
  exact (silent_resetMmp C).bind fun _ _ => ⟨_, _, rfl, rfl⟩

theorem promote_run {slot : EpochSlot} (cause : Cutover) (hpend : s.pend = some slot) :
    (promote cause).run s = .ok ⟨⟩ { s with
      cur := slot
      pend := none
      prev := some s.cur
      trace := .key (.cutover slot.origin slot.kr cause) :: s.trace } := by
  rw [promote, EStateM.run_get_bind, hpend]
  rfl

theorem settleWinner_pend {slot : EpochSlot} (frame : Bytes) (hpend : s.pend = some slot) :
    ∃ t, (settleWinner C frame .pend).run s = .ok ⟨⟩ t ∧ t.view = { s.view with
      cur := slot
      pend := none
      prev := some s.cur
      trace := .key (.cutover slot.origin slot.kr (.proof frame)) :: s.trace } := by
  obtain ⟨_, t, hrun, hview⟩ := silent_afterPromotion C (C.world.clock s.calls)
    (C.world.clock (s.calls + 1)) { s with
      cur := slot
      pend := none
      prev := some s.cur
      calls := s.calls + 2
      trace := .key (.cutover slot.origin slot.kr (.proof frame)) :: s.trace }
  refine ⟨t, ?_, hview⟩
  rw [settleWinner, EStateM.run_bind_ok (promote_run _ hpend)]
  exact hrun

/-- The frame that a slot opened is noted and taken up: the slot is promoted if it waited, and the
frame counts as handed on. -/
theorem Opened.takeUp_moves {t : Steady H M} {f : DecryptedFrame} {winner : Winner}
    (h : Opened C frame s (some (f, winner)) t) :
    ∃ u, (takeUp C frame f winner).run
        { t with trace := .frame (.received frame) :: t.trace } = .ok ⟨⟩ u ∧
      Moves C (some frame) s.view u.view := by
  cases h with
  | byCur hcur hpend => exact ⟨_, rfl, .single (.openCur rfl hcur.took hpend)⟩
  | @byPend _ cur old slot hcur hpend hopen =>
      obtain ⟨u, hrun, hview⟩ := settleWinner_pend C (s := { s with
        cur := cur
        pend := some slot
        policy := s.policy.recordGoodFrame
        lastRx := C.world.clock s.calls
        calls := s.calls + 1
        trace := .frame (.received frame) :: s.trace }) frame rfl
      refine ⟨{ u with trace := .key (.dispatched slot.kr f.counter) :: u.trace }, ?_, ?_⟩
      · rw [takeUp, EStateM.run_bind_ok (show (refresh C).run _ = .ok _ _ from rfl),
          EStateM.run_get_bind,
          EStateM.run_bind_ok hrun]
        rfl
      · change Moves C _ s.view (u.view.log [.key (.dispatched slot.kr f.counter)])
        rw [hview]
        exact .single (.openPend rfl hcur hpend hopen.took)
  | byPrev hcur hpend hprev hopen =>
      exact ⟨_, rfl, .single (.openPrev rfl hcur hpend hprev hopen.took)⟩

theorem simulated_processFrameAction (action : FrameAction) :
    Simulated C input (processFrameAction C action) := by
  cases action with
  | «continue» => exact .pure _
  | heartbeatRecv => exact EStateM.Silent.simulated fun _ => ⟨_, _, rfl, rfl⟩
  | peerDc reason => exact .pure _
  | selfDc => exact (simulated_sendDisconnect C _).bind fun _ => .pure _
  | sendDatagram data =>
      refine .modify_bind (fun _ => rfl) ?_
      exact (simulated_sendLinkMessage C _ _).bind fun _ => .pure _
  | sendLinkMessage msgType body =>
      refine .modify_bind (fun _ => rfl) ?_
      exact (simulated_sendLinkMessage C _ _).bind fun _ => .pure _

theorem silent_maybeHandleMmpControl (frame : DecryptedFrame) :
    Silent (maybeHandleMmpControl C frame) := by
  rw [maybeHandleMmpControl]
  split
  · refine (silent_ask view_ignoresCalls _).bind fun t s => ?_
    rw [EStateM.run_get_bind]
    dsimp only
    split <;> exact ⟨_, _, rfl, rfl⟩
  · split
    · exact fun _ => ⟨_, _, rfl, rfl⟩
    · exact .pure _

theorem silent_dispatchToHandler (frame : DecryptedFrame) : Silent (dispatchToHandler C frame) :=
  fun _ => ⟨_, _, rfl, rfl⟩

theorem silent_dispatch (frame : DecryptedFrame) : Silent (dispatch C frame) := by
  rw [dispatch]
  split
  · refine (silent_ask view_ignoresCalls _).bind fun t => .bind (.modify fun _ => rfl) fun _ => ?_
    refine (silent_maybeHandleMmpControl C frame).bind fun action => ?_
    split
    · exact .pure _
    · exact silent_dispatchToHandler C frame
  · exact silent_dispatchToHandler C frame

theorem simulated_rejectFrame : Simulated C input (rejectFrame C) := by
  refine (simulated_ask C _).bind fun t => ?_
  intro s
  refine EStateM.SimulatedAt.get_bind ?_
  split
  · exact .pure _ _
  · refine EStateM.SimulatedAt.set_bind .refl ?_
    split
    · exact (simulated_sendDisconnect C _).bind (fun _ => .throw _) _
    · exact .pure _ _

theorem simulatedAt_handleEstablished
    (hnames : ∀ ri ∈ s.rekeyInit, namedIndex C.build frame ≠ some ri.ourIndex) :
    EStateM.SimulatedAt view (Move C (some frame)) s (handleEstablished C frame) := by
  rw [EStateM.SimulatedAt, handleEstablished]
  obtain ⟨t, hrun, haborted⟩ | ⟨r, t, hrun, hopened⟩ := openFrame_cases C frame s
  · rw [EStateM.run_bind_error hrun]
    obtain ⟨hcur, hpend⟩ := haborted
    exact .single (.abort rfl hcur hpend)
  · rw [EStateM.run_bind_ok hrun,
      run_note_bind]
    cases r with
    | none =>
        refine Relation.ReflTransGen.trans ?_ (simulated_rejectFrame C _)
        obtain ⟨hcur, hpend, hprev⟩ := hopened
        exact .single (.miss rfl hnames hcur hpend hprev)
    | some r =>
        obtain ⟨u, hrun', hmoves⟩ := hopened.takeUp_moves
        rw [EStateM.run_bind_ok hrun']
        refine hmoves.trans ?_
        refine (silent_dispatch C _).simulated.bind (fun action => ?_) u
        refine (simulated_processFrameAction C action).bind fun ends => ?_
        split
        · exact .throw _
        · exact .pure _

theorem simulated_handleFrame (frame : Bytes) :
    Simulated C (some frame) (handleFrame C frame) := by
  refine (simulated_ask C _).bind fun t => ?_
  intro s
  refine EStateM.SimulatedAt.get_bind (EStateM.SimulatedAt.set_bind .refl ?_)
  split
  · exact .pure _ _
  · split
    · rename_i hparse
      exact simulated_handleMsg1 C hparse _
    · rename_i hparse hhs
      split
      · rename_i hbuild
        exact simulatedAt_handleMsg3 C hbuild hparse hhs
      · refine simulatedAt_handleEstablished C ?_
        simp [namedIndex, hparse]
    · rename_i hparse hri
      exact simulatedAt_handleMsg2 C hparse hri
    · rename_i hmsg1 hmsg3 hmsg2
      refine simulatedAt_handleEstablished C ?_
      intro ri hri hnames
      obtain ⟨senderIdx, np, hparse⟩ := parse_of_namedIndex hnames
      exact hmsg2 _ _ _ _ hparse hri

def AnyMove (v w : NodeView) : Prop :=
  ∃ input, Move C input v w

theorem Simulated.any (input : Option Bytes) {m : Action H M α} (h : Simulated C input m) :
    EStateM.Simulated view (AnyMove C) m :=
  h.mono fun _ _ hmove => ⟨input, hmove⟩

theorem simulated_handleFrames (frames : List Bytes) :
    EStateM.Simulated view (AnyMove C) (handleFrames C frames) := by
  induction frames with
  | nil => exact .pure _
  | cons frame frames ih => exact ((simulated_handleFrame C frame).any C _).bind fun _ => ih

/-! ## The rest of the loop -/

theorem simulated_heartbeatIfDue (t : ℕ) : Simulated C input (heartbeatIfDue C t) := by
  refine .get_bind fun s => ?_
  split
  · refine (simulated_sendHeartbeat C).bind fun nextHb => ?_
    exact EStateM.Silent.simulated fun _ => ⟨_, _, rfl, rfl⟩
  · exact .pure _

theorem simulated_sendReport (msgType : UInt8) (report : Option Bytes) :
    Simulated C input (sendReport C msgType report) := by
  cases report with
  | none => exact .pure _
  | some body => exact simulated_sendLinkMessage C _ _

theorem simulated_senderReportIfDueIk (t : ℕ) : Simulated C input (senderReportIfDueIk C t) := by
  intro s
  refine EStateM.SimulatedAt.get_bind ?_
  split
  · exact EStateM.SimulatedAt.set_bind .refl (simulated_sendReport C _ _ _)
  · exact .pure _ _

theorem simulated_senderReportXx (t : ℕ) : Simulated C input (senderReportXx C t) := by
  rw [senderReportXx]
  split
  · intro s
    refine EStateM.SimulatedAt.get_bind ?_
    exact EStateM.SimulatedAt.set_bind .refl (simulated_sendReport C _ _ _)
  · exact .pure _

theorem simulated_senderReportIfDueXx (t : ℕ) : Simulated C input (senderReportIfDueXx C t) := by
  refine .get_bind fun s => ?_
  split
  · exact (simulated_senderReportXx C t).bind fun _ => .modify fun _ => .refl
  · exact .pure _

theorem simulated_receiverReportIfDueXx (t : ℕ) :
    Simulated C input (receiverReportIfDueXx C t) := by
  intro s
  refine EStateM.SimulatedAt.get_bind ?_
  split
  · refine EStateM.SimulatedAt.set_bind .refl ?_
    exact EStateM.SimulatedAt.bind (simulated_sendReport C _ _ _) fun _ _ _ => .refl
  · exact .pure _ _

theorem simulated_sendPlainReport (t : ℕ) : Simulated C input (sendPlainReport C t) := by
  refine .get_bind fun s => ?_
  exact (simulated_sendLinkMessage C _ _).bind fun _ => .modify fun _ => .refl

theorem simulated_plainReportIfDue (t : ℕ) : Simulated C input (plainReportIfDue C t) := by
  intro s
  refine EStateM.SimulatedAt.get_bind ?_
  split
  · refine EStateM.SimulatedAt.set_bind .refl ?_
    split
    · exact simulated_sendPlainReport C t _
    · exact .pure _ _
  · exact .pure _ _

theorem simulated_reportsIfDue (t : ℕ) : Simulated C input (reportsIfDue C t) := by
  rw [reportsIfDue]
  split
  · exact simulated_senderReportIfDueIk C t
  · refine (simulated_senderReportIfDueXx C t).bind fun _ => ?_
    exact simulated_receiverReportIfDueXx C t
  · exact simulated_plainReportIfDue C t

theorem simulated_tickIfDue (tick : Option ℕ) (t : ℕ) : Simulated C input (tickIfDue C tick t) := by
  cases tick with
  | none => exact .pure _
  | some deadline =>
    rw [tickIfDue]
    split
    · refine (simulated_ask C _).bind fun t => ?_
      intro s
      refine EStateM.SimulatedAt.get_bind (EStateM.SimulatedAt.set_bind .refl ?_)
      split
      · exact simulated_sendLinkMessage C _ _ _
      · exact .pure _ _
    · exact .pure _

theorem simulated_afterFrames (tick : Option ℕ) : Simulated C input (afterFrames C tick) := by
  refine (simulated_ask C _).bind fun t => ?_
  refine (simulated_heartbeatIfDue C t).bind fun _ => ?_
  exact (simulated_reportsIfDue C t).bind fun _ => simulated_tickIfDue C tick t

theorem simulated_onBuffer (tick : Option ℕ) :
    EStateM.Simulated view (AnyMove C) (onBuffer C tick) := by
  refine .get_bind fun s => ?_
  refine (simulated_handleFrames C _).bind fun _ => ?_
  refine .modify_bind (fun s => by split <;> rfl) ?_
  exact Simulated.any C none (simulated_afterFrames C tick)

theorem simulated_onRecv (tick : Option ℕ) (chunk : Bytes) :
    EStateM.Simulated view (AnyMove C) (onRecv C tick chunk) := by
  intro s
  refine EStateM.SimulatedAt.get_bind ?_
  split
  · exact .throw _ _
  · split
    · exact EStateM.SimulatedAt.set_bind .refl (simulated_onBuffer C tick _)
    · split
      · exact .refl
      · exact EStateM.SimulatedAt.set_bind .refl (simulated_onBuffer C tick _)

theorem simulated_timerCutover (t : ℕ) : Simulated C none (timerCutover C t) := by
  intro s
  refine EStateM.SimulatedAt.get_bind ?_
  split
  · rename_i h
    obtain ⟨slot, hpend⟩ := Option.isSome_iff_exists.mp h.2
    rw [EStateM.SimulatedAt, EStateM.run_bind_ok (promote_run _ hpend)]
    refine Relation.ReflTransGen.trans (.single (.cutover rfl h.1 hpend)) ?_
    exact (silent_afterPromotion C t t).simulated { s with
      cur := slot
      pend := none
      prev := some s.cur
      pendSelf := false
      trace := .key (.cutover slot.origin slot.kr .timer) :: s.trace }
  · exact .pure _ _

theorem simulated_rekeyIfTriggered (t : ℕ) : Simulated C none (rekeyIfTriggered C t) := by
  intro s
  refine EStateM.SimulatedAt.get_bind ?_
  split
  · rename_i htriggered
    simp only [rekeyTriggered, Bool.and_eq_true, Option.isNone_iff_eq_none] at htriggered
    refine EStateM.Acts.moves_bind (acts_initiateRekey C) .refl fun r u hu => ?_
    split
    · exact hu ▸ .refl
    · rename_i ri
      obtain ⟨⟨eph, hbegun⟩, hview⟩ := hu
      change Moves C _ s.view { u.view with
        rekeyInit := some ri
        trace := .frame (.began ri.ourIndex) :: u.view.trace }
      rw [hview]
      exact .single (.beginRekey rfl htriggered.1.1.1 htriggered.1.1.2 hbegun)
  · exact .pure _ _

theorem simulated_resendOrAbandon (t : ℕ) : Simulated C none (resendOrAbandon C t) := by
  intro s
  refine EStateM.SimulatedAt.get_bind ?_
  split
  · exact .pure _ _
  · rename_i ri hri
    split
    · split
      · exact .single (.abandon s.view rfl)
      · obtain ⟨sent, u, hrun, hsent⟩ := sendFrame_run C ri.msg1 s
        rw [EStateM.SimulatedAt, EStateM.run_bind_ok hrun]
        change Moves C _ s.view { u.view with
          rekeyInit := some { ri with
            resends := ri.resends + 1
            nextResendAt :=
              t + fromMillis (C.timing.handshakeResendTimeoutMs (ri.resends + 1)) } }
        rw [hsent]
        exact .single (.resendMsg1 _ _ sent rfl hri)
    · exact .pure _ _

theorem simulated_sweep (t : ℕ) : Simulated C none (sweep t) := by
  refine .modify fun s => ?_
  split
  · exact .single (.drain s.view rfl)
  · exact .refl

theorem simulated_heartbeatOrLeave (t : ℕ) : Simulated C input (heartbeatOrLeave C t) := by
  refine (simulated_heartbeatIfDue C t).bind fun due => ?_
  split
  · refine (simulated_ask C _).bind fun t => .get_bind fun s => ?_
    split
    · exact (simulated_sendDisconnect C _).bind fun _ => .throw _
    · exact .pure _
  · exact .pure _

theorem simulated_onTimer (tick : Option ℕ) : Simulated C none (onTimer C tick) := by
  refine (simulated_ask C _).bind fun t => ?_
  refine (simulated_timerCutover C t).bind fun _ => ?_
  refine (simulated_rekeyIfTriggered C t).bind fun _ => ?_
  refine (simulated_resendOrAbandon C t).bind fun _ => ?_
  refine (simulated_sweep C t).bind fun _ => ?_
  refine (simulated_heartbeatOrLeave C t).bind fun _ => ?_
  exact (simulated_reportsIfDue C t).bind fun _ => simulated_tickIfDue C tick t

theorem simulated_checkLink : Simulated C input (checkLink C) := by
  refine (simulated_ask C _).bind fun t => .get_bind fun s => ?_
  split
  · exact (simulated_sendDisconnect C _).bind fun _ => .throw _
  · exact .pure _

theorem simulated_iteration (input : Input) :
    EStateM.Simulated view (AnyMove C) (iteration C input) := by
  refine (Simulated.any C none (simulated_checkLink C)).bind fun _ => ?_
  refine .get_bind fun s => ?_
  cases input with
  | recv chunk => exact simulated_onRecv C _ chunk
  | recvError =>
      refine (Simulated.any C none (simulated_sendDisconnect C _)).bind fun _ => ?_
      exact .throw _
  | timer => exact (simulated_onTimer C _).any C _

theorem simulated_run (inputs : List Input) :
    EStateM.Simulated view (AnyMove C) (run C inputs) := by
  induction inputs with
  | nil => exact .pure _
  | cons input inputs ih => exact (simulated_iteration C input).bind fun _ => ih

end Steady
end Node
end Microfips

import Microfips.Wire.Roundtrip
import Microfips.Node.Machine

/-!
# What a session keeps account of

The peer policy, the measurements, the slots and their drain, the handshake frames kept for a
resend, and the trace.  An `Booking` is one change of these accounts that brings no frame of the
peer in and moves no epoch on.  All the code of `steady` consists of bookings, up to four places: a
frame that a slot opened is taken up, it is counted among the received ones, the timer cuts over,
and it sweeps.  An invariant of the accounts is therefore kept by a run if it is kept by the
bookings and at these four places.
-/

namespace Microfips
namespace Node

open Noise Wire

variable {H M : Type} (C : Config H M)

structure Accounts (M : Type) where
  policy : PeerPolicy
  mmp : M
  cur : EpochSlot
  pend : Option EpochSlot
  prev : Option EpochSlot
  prevDrainBase : ℕ
  /-- The msg1 of the rekey of our own. -/
  msg1 : Option Bytes
  /-- The msg2 of the last answer. -/
  msg2 : Option Bytes
  trace : List Event

def IsHandshake (build : Build) (frame : Bytes) : Prop :=
  ∃ msg, parseMessage build frame = some msg ∧
    ∀ receiverIdx counter encrypted, msg ≠ .established receiverIdx counter encrypted

variable {build : Build} {senderIdx : SessionIndex} {np frame : Bytes} {outLen : ℕ}

theorem isHandshake_buildMsg1 (h : buildMsg1 build senderIdx np outLen = some frame) :
    IsHandshake build frame :=
  ⟨_, parseMessage_buildMsg1 h, by simp⟩

theorem isHandshake_buildMsg2 {receiverIdx : SessionIndex}
    (h : buildMsg2 build senderIdx receiverIdx np outLen = some frame) : IsHandshake build frame :=
  ⟨_, parseMessage_buildMsg2 h, by simp⟩

theorem isHandshake_buildMsg3 {receiverIdx : SessionIndex}
    (h : buildMsg3 build senderIdx receiverIdx np outLen = some frame) : IsHandshake build frame :=
  ⟨_, parseMessage_buildMsg3 h, by simp⟩

variable {C}

theorem isHandshake_of_ikAnswer {ourIndex : SessionIndex} {msg2 : Bytes} {eph : Block 32}
    {keys : Block 32 × Block 32} (h : ikAnswer C senderIdx np eph ourIndex = some (keys, msg2)) :
    IsHandshake C.build msg2 := by
  rw [ikAnswer] at h
  split_ifs at h
  obtain ⟨hs, -, h⟩ := Option.bind_eq_some_iff.mp h
  obtain ⟨r, -, h⟩ := Option.bind_eq_some_iff.mp h
  split_ifs at h
  obtain ⟨r', -, h⟩ := Option.bind_eq_some_iff.mp h
  obtain ⟨msg, hmsg, h⟩ := Option.bind_eq_some_iff.mp h
  obtain rfl := (Prod.mk.inj (Option.some.inj h)).2
  exact isHandshake_buildMsg2 hmsg

theorem isHandshake_of_xxAnswer {ourIndex : SessionIndex} {msg2 : Bytes} {eph : Block 32}
    {hs : RekeyHs} (h : xxAnswer C senderIdx np eph ourIndex = some (hs, msg2)) :
    IsHandshake C.build msg2 := by
  rw [xxAnswer] at h
  split_ifs at h
  obtain ⟨hs', -, h⟩ := Option.bind_eq_some_iff.mp h
  obtain ⟨r, -, h⟩ := Option.bind_eq_some_iff.mp h
  obtain ⟨r', -, h⟩ := Option.bind_eq_some_iff.mp h
  obtain ⟨msg, hmsg, h⟩ := Option.bind_eq_some_iff.mp h
  obtain rfl := (Prod.mk.inj (Option.some.inj h)).2
  exact isHandshake_buildMsg2 hmsg

variable (C)

/-- What a node does to its measurements but for the count of a received frame and the reset at a
cutover. -/
inductive Measured (m : M) : M → Prop where
  | recordSent (c : UInt64) (ts : UInt32) (bytes : ℕ) : Measured m (C.mmp.recordSent c ts bytes m)
  | onSenderReport (t : ℕ) (payload : Bytes) : Measured m (C.mmp.onSenderReport t payload m).2
  | onReceiverReport (t : ℕ) (payload : Bytes) : Measured m (C.mmp.onReceiverReport t payload m)
  | buildSenderReport (t : ℕ) : Measured m (C.mmp.buildSenderReport t m).2
  | buildReceiverReport (t : ℕ) : Measured m (C.mmp.buildReceiverReport t m).2

/-- The events that say nothing about a sealed frame, an opened one or a cutover. -/
inductive Plain : Event → Prop where
  | armed (origin : Origin) (ks kr : Block 32) (pendSelf : Bool) :
      Plain (.key (.armed origin ks kr pendSelf))
  | took (ks : Block 32) (c : UInt64) : Plain (.key (.took ks c))
  | received (frame : Bytes) : Plain (.frame (.received frame))
  | began (ourIndex : SessionIndex) : Plain (.frame (.began ourIndex))

def EpochSlot.SameEpoch (slot slot' : EpochSlot) : Prop :=
  slot' = { slot with replay := slot'.replay }

/-- One booking in the accounts of a session that sends link messages of the given types only. -/
inductive Booking (types : UInt8 → Prop) (a : Accounts M) : Accounts M → Prop where
  /-- The policy counts a frame.  Data frames are not forgotten. -/
  | count {policy : PeerPolicy} (h : 0 < a.policy.dataFramesRecv → 0 < policy.dataFramesRecv) :
      Booking types a { a with policy := policy }
  | measure {mmp : M} (h : Measured C a.mmp mmp) : Booking types a { a with mmp := mmp }
  | spend : Booking types a { a with
      cur := a.cur.spent
      trace := .key (.took a.cur.ks a.cur.sendCtr) :: a.trace }
  /-- A link message is sealed, and sent if the transport takes it. -/
  | sealMessage {ts : UInt32} {msgType flags : UInt8} {body inner frame : Bytes} {innerLen : ℕ}
      (c : UInt64) (sent : Bool) (htype : types msgType)
      (hinner : prependInnerHeader ts (msgType :: body) innerLen = some inner)
      (hframe : encryptAndAssemble C.suite C.build a.cur.them c flags inner a.cur.ks 256 =
        some frame) :
      Booking types a { a with
        trace := sentEvents sent frame ++ .key (.sealed a.cur.ks c) :: a.trace }
  /-- A handshake message is sent, if the transport takes it. -/
  | send {frame : Bytes} (sent : Bool) (h : IsHandshake C.build frame) :
      Booking types a { a with trace := sentEvents sent frame ++ a.trace }
  /-- It is sent once more. -/
  | resend {frame : Bytes} (sent : Bool) (h : a.msg1 = some frame ∨ a.msg2 = some frame) :
      Booking types a { a with trace := sentEvents sent frame ++ a.trace }
  | log {e : Event} (h : Plain e) : Booking types a { a with trace := e :: a.trace }
  | arm (slot : EpochSlot) : Booking types a { a with pend := some slot }
  | keepMsg1 {frame : Bytes} (h : IsHandshake C.build frame) :
      Booking types a { a with msg1 := some frame }
  | dropMsg1 : Booking types a { a with msg1 := none }
  | keepMsg2 {frame : Bytes} (h : IsHandshake C.build frame) :
      Booking types a { a with msg2 := some frame }
  /-- A frame is tried on the slots. -/
  | try {cur : EpochSlot} {pend prev : Option EpochSlot} (hcur : a.cur.SameEpoch cur)
      (hpend : Option.Rel EpochSlot.SameEpoch a.pend pend)
      (hprev : Option.Rel EpochSlot.SameEpoch a.prev prev) :
      Booking types a { a with cur := cur, pend := pend, prev := prev }

namespace Accounts

def cutOver (slot : EpochSlot) (cause : Cutover) (drainBase resetAt : ℕ) (a : Accounts M) :
    Accounts M :=
  { a with
    cur := slot
    pend := none
    prev := some a.cur
    prevDrainBase := drainBase
    mmp := if C.mmpFeature then C.mmp.resetForRekey resetAt a.mmp else a.mmp
    trace := .key (.cutover slot.origin slot.kr cause) :: a.trace }

def handOn (kr : Block 32) (c : UInt64) (a : Accounts M) : Accounts M :=
  { a with trace := .key (.dispatched kr c) :: a.trace }

def counted (opened : DecryptedFrame) (now : ℕ) (a : Accounts M) : Accounts M :=
  if C.mmpFeature then
    { a with
      mmp := C.mmp.recordRecv opened.counter opened.senderTimestamp opened.frameBytes now a.mmp }
  else
    a

end Accounts

/-- A frame that a slot opened is taken up at the time `t`. -/
inductive TakenUp (frame : Bytes) (c : UInt64) (t : ℕ) (a : Accounts M) :
    Steady.Winner → Accounts M → Prop where
  | cur : TakenUp frame c t a .cur (a.handOn a.cur.kr c)
  | pend {slot : EpochSlot} (resetAt : ℕ) (hpend : a.pend = some slot) :
      TakenUp frame c t a .pend ((a.cutOver C slot (.proof frame) t resetAt).handOn slot.kr c)
  | prev {slot : EpochSlot} (hprev : a.prev = some slot) :
      TakenUp frame c t a .prev ({ a with prevDrainBase := t }.handOn slot.kr c)

namespace Steady

def accounts (s : Steady H M) : Accounts M where
  policy := s.policy
  mmp := s.mmp
  cur := s.cur
  pend := s.pend
  prev := s.prev
  prevDrainBase := s.prevDrainBase
  msg1 := s.rekeyInit.map RekeyInit.msg1
  msg2 := s.lastRekeyMsg2
  trace := s.trace

theorem accounts_ignoresCalls : IgnoresCalls (accounts : Steady H M → Accounts M) :=
  fun _ _ => rfl

variable {types : UInt8 → Prop}

abbrev Booked (types : UInt8 → Prop) {α : Type} (m : Action H M α) : Prop :=
  EStateM.Simulated accounts (Booking C types) m

abbrev BookedAt (types : UInt8 → Prop) (s : Steady H M) {α : Type} (m : Action H M α) : Prop :=
  EStateM.SimulatedAt accounts (Booking C types) s m

theorem booked_ask {α : Type} (answer : ℕ → α) : Booked C types (ask answer) :=
  (silent_ask accounts_ignoresCalls answer).simulated

theorem booked_onEvent (event : NodeEvent) : Booked C types (onEvent C event) :=
  EStateM.Silent.simulated fun _ => ⟨_, _, rfl, rfl⟩

theorem booked_note {e : FrameEvent} (h : Plain (.frame e)) : Booked C types (note e) :=
  .modify fun _ => .single (.log h)

theorem booked_refresh : Booked C types (refresh C) :=
  (booked_ask C _).bind fun _ => .modify fun _ => .single (.count id)

theorem booked_recordSent (c : UInt64) (ts : UInt32) (bytes : ℕ) :
    Booked C types (recordSent C c ts bytes) := by
  rw [recordSent]
  split
  · exact .modify fun s => .single (.measure (.recordSent c ts bytes))
  · exact .pure _

theorem sendFrame_trace (payload : Bytes) (s : Steady H M) :
    ∃ sent n, (sendFrame C payload).run s = .ok sent { s with
      calls := n
      trace := sentEvents sent payload ++ s.trace } := by
  have hparts : ∃ ok n, (sendParts C payload).run s = .ok ok { s with calls := n } := by
    rw [sendParts]
    split
    · exact ⟨_, _, rfl⟩
    · rw [EStateM.run_bind_ok (show (transportSend C _).run s = .ok _ _ from rfl)]
      split
      · exact ⟨_, _, rfl⟩
      · exact ⟨_, _, rfl⟩
  obtain ⟨ok, n, hrun⟩ := hparts
  rw [sendFrame, EStateM.run_bind_ok hrun]
  cases ok with
  | false => exact ⟨false, n, rfl⟩
  | true => exact ⟨true, n, rfl⟩

variable {frame : Bytes} {s t : Steady H M} {msgType : UInt8} {winner : Winner}

theorem booked_sendHandshake (h : IsHandshake C.build frame) :
    Booked C types (sendFrame C frame) := by
  intro s
  obtain ⟨sent, n, hrun⟩ := sendFrame_trace C frame s
  rw [EStateM.SimulatedAt, hrun]
  exact .single (.send sent h)

theorem bookedAt_resend (h : s.accounts.msg1 = some frame ∨ s.accounts.msg2 = some frame) :
    BookedAt C types s (sendFrame C frame) := by
  obtain ⟨sent, n, hrun⟩ := sendFrame_trace C frame s
  rw [BookedAt, EStateM.SimulatedAt, hrun]
  exact .single (.resend sent h)

theorem booked_takeCounter : Booked C types (takeCounter : Action H M UInt64) :=
  fun _ => .single .spend

theorem booked_sealAndSend (c : UInt64) (htype : types msgType) (body : Bytes) (innerLen : ℕ) :
    Booked C types (sealAndSend C c (msgType :: body) innerLen) := by
  refine (booked_ask C _).bind fun t => ?_
  split
  · exact .pure _
  · rename_i inner hinner
    intro s
    refine EStateM.SimulatedAt.get_bind ?_
    split
    · exact .pure _ _
    · rename_i frame hframe
      obtain ⟨sent, n, hrun⟩ := sendFrame_trace C frame
        { s with trace := .key (.sealed s.cur.ks c) :: s.trace }
      rw [EStateM.SimulatedAt, EStateM.run_bind_ok
          (show (emit (.sealed s.cur.ks c)).run s = .ok ⟨⟩ _ from rfl),
        EStateM.run_bind_ok hrun]
      refine Relation.ReflTransGen.trans (.single (.sealMessage c sent htype hinner hframe)) ?_
      exact (booked_recordSent C c _ frame.length).bind (fun _ => .pure _) { s with
        calls := n
        trace := sentEvents sent frame ++ .key (.sealed s.cur.ks c) :: s.trace }

theorem recordDataFrame_pos (policy : PeerPolicy) : 0 < policy.recordDataFrame.dataFramesRecv := by
  simp only [PeerPolicy.recordDataFrame]
  omega

theorem booked_recordDataFrame : Booked C types
    (modify fun s : Steady H M => { s with policy := s.policy.recordDataFrame }) :=
  .modify fun s => .single (.count fun _ => recordDataFrame_pos s.policy)

theorem booked_sendLinkMessage (htype : types msgType) (body : Bytes) :
    Booked C types (sendLinkMessage C msgType body) := by
  refine (booked_takeCounter C).bind fun c => ?_
  split
  · exact .throw _
  · refine (booked_sealAndSend C c htype body 512).bind fun sealed => ?_
    split
    · exact booked_recordDataFrame C
    · exact .pure _

theorem booked_sendHeartbeat (htype : types msgHeartbeat) : Booked C types (sendHeartbeat C) := by
  refine (booked_takeCounter C).bind fun c => ?_
  refine (booked_sealAndSend C c htype [] 32).bind fun _ => ?_
  exact (booked_ask C _).bind fun _ => .pure _

theorem booked_sendDisconnect (htype : types msgDisconnect) (reason : UInt8) :
    Booked C types (sendDisconnect C reason) := by
  refine (booked_takeCounter C).bind fun c => ?_
  exact (booked_sealAndSend C c htype [reason] 32).bind fun _ => .pure _

/-! ## Rekeys -/

theorem booked_attempt {σ α β : Type} (m : EStateM (Fault NoiseError) σ α) (object : σ)
    {f : Option (α × σ) → Action H M β} (hf : ∀ r, Booked C types (f r)) :
    Booked C types (attempt m object >>= f) :=
  (yields_attempt m object).simulated_bind fun r _ => hf r

theorem booked_sendRekeyMsg1 (n1 : Bytes) (hs : LinkInitiator) :
    Booked C types (sendRekeyMsg1 C n1 hs) := by
  refine (booked_ask C _).bind fun index => ?_
  split
  · exact .pure _
  · rename_i msg1 hmsg1
    refine (booked_sendHandshake C (isHandshake_buildMsg1 hmsg1)).bind fun sent => ?_
    split
    · exact (booked_ask C _).bind fun _ => .pure _
    · exact .pure _

theorem booked_initiateRekey : Booked C types (initiateRekey C) := by
  rw [initiateRekey]
  split
  · split
    · exact .pure _
    · refine (booked_ask C _).bind fun eph => ?_
      split
      · exact .pure _
      · refine booked_attempt C _ _ fun r => ?_
        split
        · exact .pure _
        · exact booked_sendRekeyMsg1 C _ _
  · refine (booked_ask C _).bind fun eph => ?_
    split
    · exact .pure _
    · refine booked_attempt C _ _ fun r => ?_
      split
      · exact .pure _
      · exact booked_sendRekeyMsg1 C _ _

theorem isHandshake_of_initiateRekey {ri : RekeyInit}
    (h : (initiateRekey C).run s = .ok (some ri) t) : IsHandshake C.build ri.msg1 := by
  have hbegan := acts_initiateRekey C s
  simp only [h] at hbegan
  obtain ⟨⟨eph, hbegun⟩, -⟩ := hbegan
  rw [begun] at hbegun
  split at hbegun
  · rename_i hbuild
    obtain ⟨myPub, -, hbegun⟩ := Option.bind_eq_some_iff.mp hbegun
    obtain ⟨hs, -, hbegun⟩ := Option.bind_eq_some_iff.mp hbegun
    obtain ⟨r, -, hbegun⟩ := Option.bind_eq_some_iff.mp hbegun
    obtain ⟨msg1, hmsg1, hbegun⟩ := Option.bind_eq_some_iff.mp hbegun
    obtain rfl := (Prod.mk.inj (Option.some.inj hbegun)).2
    exact isHandshake_buildMsg1 hmsg1
  · obtain ⟨hs, -, hbegun⟩ := Option.bind_eq_some_iff.mp hbegun
    obtain ⟨r, -, hbegun⟩ := Option.bind_eq_some_iff.mp hbegun
    obtain ⟨msg1, hmsg1, hbegun⟩ := Option.bind_eq_some_iff.mp hbegun
    obtain rfl := (Prod.mk.inj (Option.some.inj hbegun)).2
    exact isHandshake_buildMsg1 hmsg1

theorem booked_arm (slot : EpochSlot) : Booked C types (arm slot : Action H M PUnit) := by
  intro s
  refine Relation.ReflTransGen.trans (.single (.arm slot)) ?_
  exact .single (.log (.armed slot.origin slot.ks slot.kr s.pendSelf))

theorem booked_remember (msg1Wire : Bytes) {msg2 : Bytes} (h : IsHandshake C.build msg2) :
    Booked C types (remember msg1Wire msg2 : Action H M PUnit) :=
  .modify fun _ => .single (.keepMsg2 h)

theorem booked_answerMsg1 (senderIdx : SessionIndex) (np msg1Wire : Bytes) :
    Booked C types (answerMsg1 C senderIdx np msg1Wire) := by
  rw [answerMsg1]
  split
  · refine .get_bind fun s => ?_
    refine (yields_answerRekeyMsg1Ik C accounts_ignoresCalls _ _ _).simulated_bind fun r hr => ?_
    split
    · exact .pure _
    · obtain ⟨eph, ourIndex, ks, kr, hanswer, -⟩ := hr _ rfl
      have hmsg2 := isHandshake_of_ikAnswer hanswer
      refine (booked_sendHandshake C hmsg2).bind fun _ => (booked_arm C _).bind fun _ => ?_
      exact (booked_remember C _ hmsg2).bind fun _ => .pure _
  · refine (yields_beginRekeyXx C accounts_ignoresCalls _ _).simulated_bind fun r hr => ?_
    split
    · exact .pure _
    · obtain ⟨eph, ourIndex, hanswer⟩ := hr _ rfl
      have hmsg2 := isHandshake_of_xxAnswer hanswer
      refine (booked_sendHandshake C hmsg2).bind fun _ => .modify_bind (fun _ => rfl) ?_
      exact (booked_remember C _ hmsg2).bind fun _ => .pure _

theorem booked_resendMsg2 : Booked C types (resendMsg2 C) := by
  intro s
  refine EStateM.SimulatedAt.get_bind ?_
  split
  · exact .pure _ _
  · rename_i msg2 hmsg2
    exact (bookedAt_resend C (.inr hmsg2)).bind fun _ _ _ => .pure _ _

theorem booked_notePeerRekey : Booked C types (notePeerRekey C) :=
  (booked_ask C _).bind fun _ => .modify_bind (fun _ => rfl) (booked_refresh C)

theorem booked_handleMsg1 (frame : Bytes) (senderIdx : SessionIndex) (np : Bytes) :
    Booked C types (handleMsg1 C frame senderIdx np) := by
  refine (booked_note C (.received frame)).bind fun _ => .get_bind fun s => ?_
  split
  · exact (booked_resendMsg2 C).bind fun _ => booked_notePeerRekey C
  · refine (yields_freshOk C accounts_ignoresCalls).simulated_bind fun ok _ => ?_
    split
    · refine (booked_ask C _).bind fun t => .modify_bind (fun _ => rfl) ?_
      refine (booked_answerMsg1 C _ _ _).bind fun answered => ?_
      split
      · exact booked_notePeerRekey C
      · exact .pure _
    · exact .pure _

theorem booked_handleMsg3 (frame np : Bytes) (hs : RekeyHs) :
    Booked C types (handleMsg3 C frame np hs) := by
  refine .modify_bind (fun _ => rfl) ?_
  refine (booked_note C (.received frame)).bind fun _ => booked_attempt C _ _ fun r => ?_
  split
  · exact booked_refresh C
  · split
    · refine .get_bind fun s => ?_
      exact (booked_arm C _).bind fun _ => booked_refresh C
    · exact booked_refresh C

theorem booked_complete (ri : RekeyInit) (senderIdx : SessionIndex) (np : Bytes) :
    Booked C types (complete C ri senderIdx np) := by
  rw [complete]
  split
  · exact (yields_completeIk C _ np).simulated_bind fun _ _ => .pure _
  · refine booked_attempt C _ _ fun r => ?_
    split
    · exact .pure _
    · split
      · split
        · exact .pure _
        · refine booked_attempt C _ _ fun r => ?_
          split
          · exact .pure _
          · split
            · exact .pure _
            · rename_i msg3 hmsg3
              refine (booked_sendHandshake C (isHandshake_buildMsg3 hmsg3)).bind fun sent => ?_
              split
              · exact .pure _
              · exact .pure _
      · exact .pure _

theorem booked_handleMsg2 (frame : Bytes) (senderIdx receiverIdx : SessionIndex) (np : Bytes)
    (ri : RekeyInit) : Booked C types (handleMsg2 C frame senderIdx receiverIdx np ri) := by
  rw [handleMsg2]
  split
  · exact (booked_note C (.received frame)).bind fun _ => booked_refresh C
  · refine EStateM.Simulated.bind (.modify fun _ => .single .dropMsg1) fun _ => ?_
    refine (booked_note C (.received frame)).bind fun _ => ?_
    refine (booked_complete C ri senderIdx _).bind fun r => ?_
    split
    · exact .pure _
    · exact booked_refresh C
    · refine .get_bind fun s => (booked_arm C _).bind fun _ => ?_
      exact .modify_bind (fun _ => rfl) (booked_refresh C)

theorem booked_rekeyIfTriggered (t : ℕ) : Booked C types (rekeyIfTriggered C t) := by
  intro s
  refine EStateM.SimulatedAt.get_bind ?_
  split
  · refine EStateM.SimulatedAt.bind (booked_initiateRekey C s) fun r u hrun => ?_
    split
    · exact .pure _ _
    · have hmsg1 := isHandshake_of_initiateRekey C hrun
      exact EStateM.SimulatedAt.modify_bind (.single (.keepMsg1 hmsg1))
        (booked_note C (.began _) _)
  · exact .pure _ _

theorem booked_resendOrAbandon (t : ℕ) : Booked C types (resendOrAbandon C t) := by
  intro s
  refine EStateM.SimulatedAt.get_bind ?_
  split
  · exact .pure _ _
  · rename_i ri hri
    split
    · split
      · exact .single .dropMsg1
      · obtain ⟨sent, n, hrun⟩ := sendFrame_trace C ri.msg1 s
        have hmsg1 : s.accounts.msg1 = some ri.msg1 := congrArg (Option.map RekeyInit.msg1) hri
        rw [EStateM.SimulatedAt, EStateM.run_bind_ok hrun]
        have hresend : Booking C types s.accounts { s.accounts with
            msg1 := some ri.msg1
            trace := sentEvents sent ri.msg1 ++ s.trace } := by
          rw [← hmsg1]
          exact .resend sent (.inl hmsg1)
        exact .single hresend
    · exact .pure _ _

/-! ## Established frames -/

/-- The types of the link messages that a session sends on its own: those of heartbeats,
disconnects, datagrams and sender reports, and that of receiver reports if they are negotiated. -/
structure Ordinary (types : UInt8 → Prop) : Prop where
  heartbeat : types msgHeartbeat
  disconnect : types msgDisconnect
  datagram : types msgSessionDatagram
  senderReport : types msgSenderReport
  receiverReport : mmpSendRr C = true → types msgReceiverReport

variable {C}

theorem Ordinary.all : Ordinary C fun _ => True :=
  ⟨trivial, trivial, trivial, trivial, fun _ => trivial⟩

theorem booked_processFrameAction (htypes : Ordinary C types) {action : FrameAction}
    (h : ∀ msgType body, action = .sendLinkMessage msgType body → types msgType) :
    Booked C types (processFrameAction C action) := by
  cases action with
  | «continue» => exact .pure _
  | heartbeatRecv =>
      refine EStateM.Simulated.bind (.modify fun _ => .single (.count id)) fun _ => ?_
      exact (booked_onEvent C _).bind fun _ => .pure _
  | peerDc reason => exact .pure _
  | selfDc => exact (booked_sendDisconnect C htypes.disconnect _).bind fun _ => .pure _
  | sendDatagram data =>
      refine (booked_recordDataFrame C).bind fun _ => ?_
      exact (booked_sendLinkMessage C htypes.datagram data).bind fun _ => .pure _
  | sendLinkMessage msgType body =>
      refine (booked_recordDataFrame C).bind fun _ => ?_
      exact (booked_sendLinkMessage C (h msgType body rfl) body).bind fun _ => .pure _

theorem booked_maybeHandleMmpControl (frame : DecryptedFrame) :
    Booked C types (maybeHandleMmpControl C frame) := by
  rw [maybeHandleMmpControl]
  split
  · refine (booked_ask C _).bind fun t s => EStateM.SimulatedAt.get_bind ?_
    refine EStateM.SimulatedAt.set_bind (.single (.measure (.onSenderReport t frame.payload))) ?_
    split
    · exact .pure _ _
    · exact .pure _ _
  · split
    · refine (booked_ask C _).bind fun t => ?_
      refine EStateM.Simulated.bind (.modify fun s => ?_) fun _ => .pure _
      exact .single (.measure (.onReceiverReport t frame.payload))
    · exact .pure _

theorem booked_dispatchToHandler (frame : DecryptedFrame) :
    Booked C types (dispatchToHandler C frame) :=
  EStateM.Silent.simulated fun _ => ⟨_, _, rfl, rfl⟩

theorem booked_rejectFrame (htypes : Ordinary C types) : Booked C types (rejectFrame C) := by
  refine (booked_ask C _).bind fun t s => EStateM.SimulatedAt.get_bind ?_
  split
  · exact .pure _ _
  · refine EStateM.SimulatedAt.set_bind (.single (.count id)) ?_
    split
    · exact (booked_sendDisconnect C htypes.disconnect _).bind (fun _ => .throw _) _
    · exact .pure _ _

theorem Missed.sameEpoch {slot slot' : Option EpochSlot} (h : Missed C frame slot slot') :
    Option.Rel EpochSlot.SameEpoch slot slot' := by
  cases h with
  | none => exact .none
  | some h => exact .some h.eq

theorem sameEpoch_refl (slot : Option EpochSlot) : Option.Rel EpochSlot.SameEpoch slot slot := by
  cases slot with
  | none => exact .none
  | some slot => exact .some rfl

theorem Opened.booking {r : Option (DecryptedFrame × Winner)} (h : Opened C frame s r t) :
    Booking C types s.accounts t.accounts := by
  cases h with
  | missed hcur hpend hprev => exact .try hcur.eq (Missed.sameEpoch hpend) (Missed.sameEpoch hprev)
  | byCur hcur hpend =>
      refine .try hcur.eq ?_ (sameEpoch_refl _)
      rcases hpend with rfl | hpend
      · exact sameEpoch_refl _
      · exact Missed.sameEpoch hpend
  | byPend hcur hpend hopen =>
      refine .try ?_ ?_ (sameEpoch_refl _)
      · rcases hcur with rfl | hcur
        · rfl
        · exact hcur.eq
      · rw [show s.accounts.pend = some _ from hpend]
        exact .some hopen.eq
  | byPrev hcur hpend hprev hopen =>
      refine .try hcur.eq (Missed.sameEpoch hpend) ?_
      rw [show s.accounts.prev = some _ from hprev]
      exact .some hopen.eq

theorem Aborted.booking (h : Aborted C frame s t) : Booking C types s.accounts t.accounts := by
  obtain ⟨hcur, hpend⟩ := h
  refine .try ?_ ?_ (sameEpoch_refl _)
  · rcases hcur with rfl | hcur
    · rfl
    · exact hcur.eq
  · rcases hpend with rfl | hpend
    · exact sameEpoch_refl _
    · exact Missed.sameEpoch hpend

variable (C)

def limited (s : Steady H M) : Steady H M :=
  { s with
    policy := (s.policy.checkFrameRate (C.world.clock s.calls)).2
    calls := s.calls + 1 }

/-- In `s` a frame is handed to the established branch, and the slot `winner` opens it. -/
def OpensAs (frame : Bytes) (s : Steady H M) (opened : DecryptedFrame) (winner : Winner) : Prop :=
  ∃ t, (openFrame C frame).run (limited C s) = .ok (some (opened, winner)) t ∧
    (handleFrame C frame).run s = (handleEstablished C frame).run (limited C s)

def openedType (frame : Bytes) (s : Steady H M) : Option UInt8 :=
  match (openFrame C frame).run (limited C s) with
  | .ok (some (opened, _)) _ => some opened.msgType
  | _ => none

def accept (frame : Bytes) (opened : DecryptedFrame) (winner : Winner) : Action H M PUnit := do
  takeUp C frame opened winner
  let action ← dispatch C opened
  if ← processFrameAction C action then
    throw (.err (.ok ⟨⟩))
  else
    return ⟨⟩

variable {C}

theorem limited_booking (s : Steady H M) : Booking C types s.accounts (limited C s).accounts := by
  refine .count fun h => ?_
  have heq : (s.policy.checkFrameRate (C.world.clock s.calls)).2.dataFramesRecv =
      s.policy.dataFramesRecv := by
    simp only [PeerPolicy.checkFrameRate]
    split_ifs <;> rfl
  change 0 < (s.policy.checkFrameRate (C.world.clock s.calls)).2.dataFramesRecv
  rw [heq]
  exact h

/-- The established branch books a frame that no slot opens, or goes on with the slot that did. -/
theorem handleEstablished_split (htypes : Ordinary C types) (frame : Bytes) (s : Steady H M) :
    BookedAt C types s (handleEstablished C frame) ∨
      ∃ opened winner t, (openFrame C frame).run s = .ok (some (opened, winner)) t ∧
        Opened C frame s (some (opened, winner)) t ∧
        (handleEstablished C frame).run s = (accept C frame opened winner).run
          { t with trace := .frame (.received frame) :: t.trace } := by
  rw [BookedAt, EStateM.SimulatedAt, handleEstablished]
  obtain ⟨t, hrun, haborted⟩ | ⟨r, t, hrun, hopened⟩ := openFrame_cases C frame s
  · rw [EStateM.run_bind_error hrun]
    exact .inl (.single haborted.booking)
  · rw [EStateM.run_bind_ok hrun,
      run_note_bind]
    cases r with
    | none =>
        refine .inl ?_
        refine Relation.ReflTransGen.trans (.single hopened.booking) ?_
        refine Relation.ReflTransGen.trans (.single (.log (.received frame))) ?_
        exact booked_rejectFrame htypes { t with trace := .frame (.received frame) :: t.trace }
    | some x => exact .inr ⟨x.1, x.2, t, hrun, hopened, rfl⟩

/-- A frame that a slot opens gets to the established branch, if the rate limit lets it. -/
theorem opensAs_of_openFrame {opened : DecryptedFrame}
    (hrate : (s.policy.checkFrameRate (C.world.clock s.calls)).1 = .allow)
    (hrun : (openFrame C frame).run (limited C s) = .ok (some (opened, winner)) t) :
    OpensAs C frame s opened winner := by
  refine ⟨t, hrun, ?_⟩
  obtain ⟨kr, c, hopens⟩ : ∃ kr c, Opens C.suite C.build kr frame c := by
    obtain ⟨u, hrun', -⟩ | ⟨r, u, hrun', hopened⟩ := openFrame_cases C frame (limited C s)
    · cases hrun.symm.trans hrun'
    · obtain ⟨rfl, rfl⟩ := EStateM.Result.ok.inj (hrun'.symm.trans hrun)
      cases hopened with
      | byCur hcur _ => exact ⟨_, _, hcur.took.opens⟩
      | byPend _ _ hopen => exact ⟨_, _, hopen.took.opens⟩
      | byPrev _ _ _ hopen => exact ⟨_, _, hopen.took.opens⟩
  rw [handleFrame, run_now_bind,
    EStateM.run_get_bind, EStateM.run_set_bind, if_neg]
  · split
    · rename_i hparse
      exact absurd hopens (not_opens_of_parse C hparse (by simp) _ _)
    · rename_i hparse _
      exact absurd hopens (not_opens_of_parse C hparse (by simp) _ _)
    · rename_i hparse _
      exact absurd hopens (not_opens_of_parse C hparse (by simp) _ _)
    · rfl
  · intro hreject
    exact PolicyVerdict.noConfusion (hrate.symm.trans hreject)

theorem OpensAs.opened {opened : DecryptedFrame} (h : OpensAs C frame s opened winner) :
    ∃ t, Opened C frame (limited C s) (some (opened, winner)) t ∧
      (handleFrame C frame).run s = (accept C frame opened winner).run
        { t with trace := .frame (.received frame) :: t.trace } := by
  obtain ⟨t, hrun, hhandle⟩ := h
  obtain ⟨u, hrun', -⟩ | ⟨r, u, hrun', hopened⟩ := openFrame_cases C frame (limited C s)
  · cases hrun.symm.trans hrun'
  · obtain ⟨rfl, rfl⟩ := EStateM.Result.ok.inj (hrun'.symm.trans hrun)
    refine ⟨u, hopened, ?_⟩
    rw [hhandle, handleEstablished, EStateM.run_bind_ok hrun,
      run_note_bind]
    rfl

theorem handleFrame_split (htypes : Ordinary C types) (frame : Bytes) (s : Steady H M) :
    BookedAt C types s (handleFrame C frame) ∨
      ∃ opened winner t, OpensAs C frame s opened winner ∧
        Opened C frame (limited C s) (some (opened, winner)) t ∧
        (handleFrame C frame).run s = (accept C frame opened winner).run
          { t with trace := .frame (.received frame) :: t.trace } := by
  have hbooked {m : Action H M PUnit} (hm : BookedAt C types (limited C s) m)
      (hrun : (handleFrame C frame).run s = m.run (limited C s)) :
      BookedAt C types s (handleFrame C frame) := by
    rw [BookedAt, EStateM.SimulatedAt, hrun]
    exact Relation.ReflTransGen.trans (.single (limited_booking s)) hm
  obtain ⟨m, hm, hrun⟩ : ∃ m : Action H M PUnit,
      (m = handleEstablished C frame ∨ BookedAt C types (limited C s) m) ∧
        (handleFrame C frame).run s = m.run (limited C s) := by
    rw [handleFrame, run_now_bind,
      EStateM.run_get_bind, EStateM.run_set_bind]
    split
    · exact ⟨pure ⟨⟩, .inr (.pure _ _), rfl⟩
    · split
      · exact ⟨_, .inr (booked_handleMsg1 C frame _ _ _), rfl⟩
      · split
        · exact ⟨_, .inr (booked_handleMsg3 C frame _ _ _), rfl⟩
        · exact ⟨_, .inl rfl, rfl⟩
      · exact ⟨_, .inr (booked_handleMsg2 C frame _ _ _ _ _), rfl⟩
      · exact ⟨_, .inl rfl, rfl⟩
  rcases hm with rfl | hm
  · obtain h | ⟨opened, winner, t, hopen, hopened, haccept⟩ :=
      handleEstablished_split htypes frame (limited C s)
    · exact .inl (hbooked h hrun)
    · exact .inr ⟨opened, winner, t, ⟨t, hopen, hrun⟩, hopened, hrun.trans haccept⟩
  · exact .inl (hbooked hm hrun)

theorem resetMmp_accounts (s : Steady H M) :
    ∃ resetAt u, (resetMmp C).run s = .ok ⟨⟩ u ∧ u.handler = s.handler ∧
      u.accounts = { s.accounts with
        mmp := if C.mmpFeature then C.mmp.resetForRekey resetAt s.mmp else s.mmp } := by
  rw [resetMmp]
  split
  · exact ⟨_, _, rfl, rfl, rfl⟩
  · exact ⟨0, _, rfl, rfl, rfl⟩

theorem afterPromotion_accounts (drainBase started : ℕ) (s : Steady H M) :
    ∃ resetAt u, (afterPromotion C drainBase started).run s = .ok ⟨⟩ u ∧
      u.handler = s.handler ∧ u.accounts = { s.accounts with
        prevDrainBase := drainBase
        mmp := if C.mmpFeature then C.mmp.resetForRekey resetAt s.mmp else s.mmp } := by
  obtain ⟨resetAt, u, hrun, hhandler, hu⟩ := resetMmp_accounts (C := C)
    { s with prevDrainBase := drainBase, sessionStarted := started }
  rw [afterPromotion, EStateM.run_modify_bind,
    EStateM.run_bind_ok hrun]
  exact ⟨resetAt, _, rfl, hhandler, hu⟩

variable (types) in
theorem Opened.takenUp {opened : DecryptedFrame} (h : Opened C frame s (some (opened, winner)) t) :
    ∃ a u, Relation.ReflTransGen (Booking C types) s.accounts a ∧
      (takeUp C frame opened winner).run { t with trace := .frame (.received frame) :: t.trace } =
        .ok ⟨⟩ u ∧
      u.handler = s.handler ∧
      TakenUp C frame opened.counter (C.world.clock (s.calls + 1)) a winner u.accounts := by
  have hbookings : Relation.ReflTransGen (Booking C types) s.accounts { t.accounts with
      policy := t.policy.recordGoodFrame
      trace := .frame (.received frame) :: t.trace } :=
    .tail (.tail (.single h.booking) (.log (.received frame))) (.count id)
  cases h with
  | byCur hcur hpend => exact ⟨_, _, hbookings, rfl, rfl, .cur⟩
  | @byPend _ cur old slot hcur hpend hopen =>
      obtain ⟨resetAt, u, hrun, hhandler, hu⟩ := afterPromotion_accounts (C := C)
        (C.world.clock (s.calls + 1)) (C.world.clock (s.calls + 2)) { s with
          policy := s.policy.recordGoodFrame
          lastRx := C.world.clock s.calls
          cur := slot
          pend := none
          prev := some cur
          calls := s.calls + 3
          trace := .key (.cutover slot.origin slot.kr (.proof frame)) ::
            .frame (.received frame) :: s.trace }
      refine ⟨_, { u with trace := .key (.dispatched slot.kr opened.counter) :: u.trace },
        hbookings,
        ?_, hhandler, ?_⟩
      · have hsettle : (settleWinner C frame .pend).run { s with
            policy := s.policy.recordGoodFrame
            lastRx := C.world.clock s.calls
            cur := cur
            pend := some slot
            calls := s.calls + 1
            trace := .frame (.received frame) :: s.trace } = .ok ⟨⟩ u := by
          rw [settleWinner, EStateM.run_bind_ok (promote_run _ rfl)]
          exact hrun
        rw [takeUp, EStateM.run_bind_ok (show (refresh C).run _ = .ok _ _ from rfl),
          EStateM.run_get_bind, EStateM.run_bind_ok hsettle]
        rfl
      · change TakenUp C frame opened.counter _ _ _ (u.accounts.handOn slot.kr opened.counter)
        rw [hu]
        exact .pend resetAt rfl
  | byPrev hcur hpend hprev hopen => exact ⟨_, _, hbookings, rfl, rfl, .prev rfl⟩

variable (types) in
theorem dispatch_booked (opened : DecryptedFrame) (u : Steady H M) :
    Relation.ReflTransGen (Booking C types) (u.accounts.counted C opened (C.world.clock u.calls))
      ((dispatch C opened).run u).state.accounts := by
  rw [dispatch, Accounts.counted]
  split
  · have hnow : (now C).run u = .ok (C.world.clock u.calls) { u with calls := u.calls + 1 } := rfl
    rw [EStateM.run_bind_ok hnow, EStateM.run_modify_bind]
    change EStateM.SimulatedAt accounts (Booking C types) { u with
      calls := u.calls + 1
      mmp := C.mmp.recordRecv opened.counter opened.senderTimestamp opened.frameBytes
        (C.world.clock u.calls) u.mmp } _
    refine (booked_maybeHandleMmpControl opened).bind (fun action => ?_) _
    split
    · exact .pure _
    · exact booked_dispatchToHandler opened
  · exact booked_dispatchToHandler opened u

def RepliesAs (types : UInt8 → Prop) (opened : DecryptedFrame) : Prop :=
  ∀ u v msgType body, (dispatch C opened).run u = .ok (.sendLinkMessage msgType body) v →
    types msgType

theorem Opened.accepted (htypes : Ordinary C types) {opened : DecryptedFrame}
    (h : Opened C frame s (some (opened, winner)) t) (hreply : RepliesAs (C := C) types opened) :
    ∃ a b now, Relation.ReflTransGen (Booking C types) s.accounts a ∧
      TakenUp C frame opened.counter (C.world.clock (s.calls + 1)) a winner b ∧
      Relation.ReflTransGen (Booking C types) (b.counted C opened now)
        ((accept C frame opened winner).run
          { t with trace := .frame (.received frame) :: t.trace }).state.accounts := by
  obtain ⟨a, u, hbookings, hrun, -, htaken⟩ := h.takenUp types
  refine ⟨a, u.accounts, C.world.clock u.calls, hbookings, htaken, ?_⟩
  rw [accept, EStateM.run_bind_ok hrun]
  have hdispatch := dispatch_booked (C := C) types opened u
  cases hres : (dispatch C opened).run u with
  | error e v =>
      rw [hres] at hdispatch
      rw [EStateM.run_bind_error hres]
      exact hdispatch
  | ok action v =>
      rw [hres] at hdispatch
      rw [EStateM.run_bind_ok hres]
      refine hdispatch.trans ?_
      refine EStateM.Simulated.bind (booked_processFrameAction htypes ?_) (fun ends => ?_) v
      · rintro msgType body rfl
        exact hreply u v msgType body hres
      · split
        · exact .throw _
        · exact .pure _

/-! ## The rest of the loop -/

theorem booked_heartbeatIfDue (htypes : Ordinary C types) (t : ℕ) :
    Booked C types (heartbeatIfDue C t) := by
  refine .get_bind fun s => ?_
  split
  · refine (booked_sendHeartbeat C htypes.heartbeat).bind fun nextHb => ?_
    refine .modify_bind (fun _ => rfl) ?_
    exact (booked_onEvent C _).bind fun _ => .pure _
  · exact .pure _

theorem booked_sendReport (htype : types msgType) (report : Option Bytes) :
    Booked C types (sendReport C msgType report) := by
  cases report with
  | none => exact .pure _
  | some body => exact booked_sendLinkMessage C htype body

theorem booked_senderReportIfDueIk (htypes : Ordinary C types) (t : ℕ) :
    Booked C types (senderReportIfDueIk C t) := by
  intro s
  refine EStateM.SimulatedAt.get_bind ?_
  split
  · refine EStateM.SimulatedAt.set_bind (.single (.measure (.buildSenderReport t))) ?_
    exact booked_sendReport htypes.senderReport _ _
  · exact .pure _ _

theorem booked_senderReportIfDueXx (htypes : Ordinary C types) (t : ℕ) :
    Booked C types (senderReportIfDueXx C t) := by
  have hreport : Booked C types (senderReportXx C t) := by
    rw [senderReportXx]
    split
    · intro s
      refine EStateM.SimulatedAt.get_bind ?_
      refine EStateM.SimulatedAt.set_bind (.single (.measure (.buildSenderReport t))) ?_
      exact booked_sendReport htypes.senderReport _ _
    · exact .pure _
  refine .get_bind fun s => ?_
  split
  · exact hreport.bind fun _ => .modify fun _ => .refl
  · exact .pure _

theorem booked_receiverReportIfDueXx (htypes : Ordinary C types) (t : ℕ) :
    Booked C types (receiverReportIfDueXx C t) := by
  intro s
  refine EStateM.SimulatedAt.get_bind ?_
  split
  · rename_i hdue
    refine EStateM.SimulatedAt.set_bind (.single (.measure (.buildReceiverReport t))) ?_
    exact EStateM.SimulatedAt.bind (booked_sendReport (htypes.receiverReport hdue.2) _ _)
      fun _ _ _ => .refl
  · exact .pure _ _

theorem booked_plainReportIfDue (htypes : Ordinary C types) (t : ℕ) :
    Booked C types (plainReportIfDue C t) := by
  have hreport : Booked C types (sendPlainReport C t) :=
    .get_bind fun s => (booked_sendLinkMessage C htypes.senderReport _).bind fun _ =>
      .modify fun _ => .refl
  intro s
  refine EStateM.SimulatedAt.get_bind ?_
  split
  · refine EStateM.SimulatedAt.set_bind .refl ?_
    split
    · exact hreport _
    · exact .pure _ _
  · exact .pure _ _

theorem booked_reportsIfDue (htypes : Ordinary C types) (t : ℕ) :
    Booked C types (reportsIfDue C t) := by
  rw [reportsIfDue]
  split
  · exact booked_senderReportIfDueIk htypes t
  · refine (booked_senderReportIfDueXx htypes t).bind fun _ => ?_
    exact booked_receiverReportIfDueXx htypes t
  · exact booked_plainReportIfDue htypes t

theorem booked_tickIfDue (htypes : Ordinary C types) (tick : Option ℕ) (t : ℕ) :
    Booked C types (tickIfDue C tick t) := by
  cases tick with
  | none => exact .pure _
  | some deadline =>
      rw [tickIfDue]
      split
      · refine (booked_ask C _).bind fun t s => EStateM.SimulatedAt.get_bind ?_
        refine EStateM.SimulatedAt.set_bind .refl ?_
        split
        · exact booked_sendLinkMessage C htypes.datagram _ _
        · exact .pure _ _
      · exact .pure _

theorem booked_afterFrames (htypes : Ordinary C types) (tick : Option ℕ) :
    Booked C types (afterFrames C tick) := by
  refine (booked_ask C _).bind fun t => (booked_heartbeatIfDue htypes t).bind fun _ => ?_
  exact (booked_reportsIfDue htypes t).bind fun _ => booked_tickIfDue htypes tick t

theorem booked_heartbeatOrLeave (htypes : Ordinary C types) (t : ℕ) :
    Booked C types (heartbeatOrLeave C t) := by
  refine (booked_heartbeatIfDue htypes t).bind fun due => ?_
  split
  · refine (booked_ask C _).bind fun t => .get_bind fun s => ?_
    split
    · exact (booked_sendDisconnect C htypes.disconnect _).bind fun _ => .throw _
    · exact .pure _
  · exact .pure _

theorem booked_checkLink (htypes : Ordinary C types) : Booked C types (checkLink C) := by
  refine (booked_ask C _).bind fun t => .get_bind fun s => ?_
  split
  · exact (booked_sendDisconnect C htypes.disconnect _).bind fun _ => .throw _
  · exact .pure _

theorem timerCutover_accounts (t : ℕ) (s : Steady H M) :
    ∃ u, (timerCutover C t).run s = .ok ⟨⟩ u ∧
      (u.accounts = s.accounts ∨ ∃ slot resetAt, s.pendSelf = true ∧ s.pend = some slot ∧
        u.accounts = s.accounts.cutOver C slot .timer t resetAt) := by
  rw [timerCutover, EStateM.run_get_bind]
  split
  · rename_i h
    obtain ⟨slot, hpend⟩ := Option.isSome_iff_exists.mp h.2
    obtain ⟨resetAt, u, hrun, -, hu⟩ := afterPromotion_accounts (C := C) t t { s with
      cur := slot
      pend := none
      prev := some s.cur
      pendSelf := false
      trace := .key (.cutover slot.origin slot.kr .timer) :: s.trace }
    rw [EStateM.run_bind_ok (promote_run _ hpend),
      EStateM.run_modify_bind, hrun]
    exact ⟨u, rfl, .inr ⟨slot, resetAt, h.1, hpend, hu⟩⟩
  · exact ⟨s, rfl, .inl rfl⟩

end Steady
end Node
end Microfips

import Microfips.Node.Rekey

/-!
# The steady loop

The loop of `steady`: a received chunk is cut into frames, each frame is a rekey message or is
opened against the live epochs, and a timer tick promotes, starts, resends and retires epochs.
One pass of the loop is one `Input`.
-/

namespace Microfips
namespace Node
namespace Steady

open Noise Wire Mmp

variable {H M : Type} (C : Config H M)

def drainWindowSecs : ℕ := 10

def rekeyDampeningSecs : ℕ := 30

inductive Winner where
  | cur
  | pend
  | prev
  deriving DecidableEq

def tryCur (frame : Bytes) : Action H M (Option DecryptedFrame) := do
  let s ← get
  match decryptEstablishedFrame C.suite C.build C.usizeBits s.cur.kr frame s.cur.replay with
  | .error _ => throw .panic
  | .ok (opened, replay) =>
      set { s with cur := { s.cur with replay := replay } }
      return opened

def tryPend (frame : Bytes) : Action H M (Option DecryptedFrame) := do
  let s ← get
  match s.pend with
  | none => return none
  | some slot =>
      match decryptEstablishedFrame C.suite C.build C.usizeBits slot.kr frame slot.replay with
      | .error _ => throw .panic
      | .ok (opened, replay) =>
          set { s with pend := some { slot with replay := replay } }
          return opened

def tryPrev (frame : Bytes) : Action H M (Option DecryptedFrame) := do
  let s ← get
  match s.prev with
  | none => return none
  | some slot =>
      match decryptEstablishedFrame C.suite C.build C.usizeBits slot.kr frame slot.replay with
      | .error _ => throw .panic
      | .ok (opened, replay) =>
          set { s with prev := some { slot with replay := replay } }
          return opened

def tryPrevLast (frame : Bytes) : Action H M (Option (DecryptedFrame × Winner)) := do
  match ← tryPrev C frame with
  | some f => return some (f, .prev)
  | none => return none

def keyEpochBit (frame : Bytes) : Bool :=
  match EncryptedHeader.parse C.build frame with
  | none => false
  | some enc => enc.headerBytes.getD 1 0 &&& flagKeyEpoch ≠ 0

/-- The trial decryption across the live epochs.  The key epoch bit of the frame only decides
whether `cur` or `pend` is tried first. -/
def openFrame (frame : Bytes) : Action H M (Option (DecryptedFrame × Winner)) := do
  let s ← get
  if keyEpochBit C frame ≠ s.cur.kBit ∧ s.pend.isSome then
    match ← tryPend C frame with
    | some f => return some (f, .pend)
    | none =>
        match ← tryCur C frame with
        | some f => return some (f, .cur)
        | none => tryPrevLast C frame
  else
    match ← tryCur C frame with
    | some f => return some (f, .cur)
    | none =>
        match ← tryPend C frame with
        | some f => return some (f, .pend)
        | none => tryPrevLast C frame

def promote (cause : Cutover) : Action H M PUnit := do
  let s ← get
  match s.pend with
  | none => return ⟨⟩
  | some slot =>
      set { s with cur := slot, pend := none, prev := some s.cur }
      emit (.cutover slot.origin slot.kr cause)

def resetMmp : Action H M PUnit := do
  if C.mmpFeature then
    let t ← now C
    modify fun s => { s with mmp := C.mmp.resetForRekey t s.mmp }
  else
    return ⟨⟩

/-- What follows a promotion: the drain of the old epoch, the age of the new one, the measurements
and the grace for stragglers start anew. -/
def afterPromotion (drainBase started : ℕ) : Action H M PUnit := do
  modify fun s => { s with prevDrainBase := drainBase, sessionStarted := started }
  resetMmp C
  let t ← now C
  modify fun s =>
    { s with badFrameGraceUntil := t + fromSecs C.timing.badFrameGraceSecs }

def processFrameAction (action : FrameAction) : Action H M Bool := do
  match action with
  | .continue => return false
  | .heartbeatRecv =>
      modify fun s => { s with policy := s.policy.recordHeartbeat }
      onEvent C .heartbeatRecv
      return false
  | .peerDc _ => return true
  | .selfDc =>
      sendDisconnect C discReasonShutdown
      return true
  | .sendDatagram data =>
      modify fun s => { s with policy := s.policy.recordDataFrame }
      sendSessionDatagram C data
      return false
  | .sendLinkMessage msgType body =>
      modify fun s => { s with policy := s.policy.recordDataFrame }
      sendLinkMessage C msgType body
      return false

def maybeHandleMmpControl (frame : DecryptedFrame) : Action H M (Option FrameAction) := do
  if frame.msgType = msgSenderReport then
    let t ← now C
    let s ← get
    let r := C.mmp.onSenderReport t frame.payload s.mmp
    set { s with mmp := r.2 }
    match r.1 with
    | none => return some .continue
    | some body => return some (.sendLinkMessage msgReceiverReport body)
  else if frame.msgType = msgReceiverReport then
    let t ← now C
    modify fun s => { s with mmp := C.mmp.onReceiverReport t frame.payload s.mmp }
    return some .continue
  else
    return none

def dispatchToHandler (frame : DecryptedFrame) : Action H M FrameAction := do
  let t ← now C
  let s ← get
  let r := dispatchLinkMessage C.build C.handler t frame s.handler
  set { s with handler := r.2 }
  return r.1

def dispatch (frame : DecryptedFrame) : Action H M FrameAction := do
  if C.mmpFeature then
    let t ← now C
    modify fun s =>
      { s with
        mmp := C.mmp.recordRecv frame.counter frame.senderTimestamp frame.frameBytes t s.mmp }
    match ← maybeHandleMmpControl C frame with
    | some action => return action
    | none => dispatchToHandler C frame
  else
    dispatchToHandler C frame

def rejectFrame : Action H M PUnit := do
  let t ← now C
  let s ← get
  if t < s.badFrameGraceUntil then
    return ⟨⟩
  else
    let policy := s.policy.recordBadFrame
    set { s with policy := policy }
    if policy.checkBadFrameLimit = .reject ∨ policy.checkTotalBadFrameLimit = .reject then
      sendDisconnect C discReasonSecurityViolation
      throw (.err (.error .disconnected))
    else
      return ⟨⟩

/-- What the slot that opened a frame means for the epochs. -/
def settleWinner (frame : Bytes) (winner : Winner) : Action H M PUnit := do
  match winner with
  | .cur => return ⟨⟩
  | .pend =>
      promote (.proof frame)
      let drainBase ← now C
      let started ← now C
      afterPromotion C drainBase started
  | .prev =>
      let t ← now C
      modify fun s => { s with prevDrainBase := t }

def winnerKey (s : Steady H M) : Winner → Block 32
  | .cur => s.cur.kr
  | .pend => (s.pend.map EpochSlot.kr).getD s.cur.kr
  | .prev => (s.prev.map EpochSlot.kr).getD s.cur.kr

def takeUp (frame : Bytes) (opened : DecryptedFrame) (winner : Winner) : Action H M PUnit := do
  refresh C
  let s ← get
  settleWinner C frame winner
  emit (.dispatched (winnerKey s winner) opened.counter)

def handleEstablished (frame : Bytes) : Action H M PUnit := do
  let r ← openFrame C frame
  note (.received frame)
  match r with
  | none => rejectFrame C
  | some (opened, winner) =>
      takeUp C frame opened winner
      let action ← dispatch C opened
      if ← processFrameAction C action then
        throw (.err (.ok ⟨⟩))
      else
        return ⟨⟩

def handleFrame (frame : Bytes) : Action H M PUnit := do
  let t ← now C
  let s ← get
  let r := s.policy.checkFrameRate t
  set { s with policy := r.2 }
  if r.1 = .reject then
    return ⟨⟩
  else
    match parseMessage C.build frame, s.rekeyHs, s.rekeyInit with
    | some (.msg1 senderIdx noisePayload), _, _ => handleMsg1 C frame senderIdx noisePayload
    | some (.msg3 _ _ noisePayload), some hs, _ =>
        if C.build = .xx then handleMsg3 C frame noisePayload hs else handleEstablished C frame
    | some (.msg2 senderIdx receiverIdx noisePayload), _, some ri =>
        handleMsg2 C frame senderIdx receiverIdx noisePayload ri
    | _, _, _ => handleEstablished C frame

def handleFrames : List Bytes → Action H M PUnit
  | [] => return ⟨⟩
  | frame :: frames => do
      handleFrame C frame
      handleFrames frames

def heartbeatIfDue (t : ℕ) : Action H M Bool := do
  let s ← get
  if s.nextHb ≤ t then
    let nextHb ← sendHeartbeat C
    modify fun s => { s with nextHb := nextHb }
    onEvent C .heartbeatSent
    return true
  else
    return false

def mmpSendSr : Bool :=
  fmpFeatures C.ourProfile &&& fmpFeatProvidesSr ≠ 0 && C.peerWantsSr

def mmpSendRr : Bool :=
  fmpFeatures C.ourProfile &&& fmpFeatProvidesRr ≠ 0 && C.peerWantsRr

def sendReport (msgType : UInt8) (report : Option Bytes) : Action H M PUnit :=
  match report with
  | none => return ⟨⟩
  | some body => sendLinkMessage C msgType body

def sendPlainReport (t : ℕ) : Action H M PUnit := do
  let s ← get
  let endTs := UInt32.ofNat (asMillis t)
  sendLinkMessage C msgSenderReport
    (List.replicate 3 0 ++ Bytes.ofNat 8 s.srStartCtr.toNat ++ Bytes.ofNat 8 s.cur.sendCtr.toNat ++
      Bytes.ofNat 4 s.srStartTs.toNat ++ Bytes.ofNat 4 endTs.toNat ++
      List.replicate (senderReportBodySize C.build - 27) 0)
  modify fun s => { s with srStartCtr := s.cur.sendCtr, srStartTs := endTs }

def senderReportIfDueIk (t : ℕ) : Action H M PUnit := do
  let s ← get
  if s.nextSr ≤ t then
    let r := C.mmp.buildSenderReport t s.mmp
    set { s with mmp := r.2, nextSr := t + C.mmp.senderReportInterval r.2 }
    sendReport C msgSenderReport r.1
  else
    return ⟨⟩

def senderReportXx (t : ℕ) : Action H M PUnit := do
  if mmpSendSr C then
    let s ← get
    let r := C.mmp.buildSenderReport t s.mmp
    set { s with mmp := r.2 }
    sendReport C msgSenderReport r.1
  else
    return ⟨⟩

def senderReportIfDueXx (t : ℕ) : Action H M PUnit := do
  let s ← get
  if s.nextSr ≤ t then
    senderReportXx C t
    modify fun s => { s with nextSr := t + C.mmp.senderReportInterval s.mmp }
  else
    return ⟨⟩

def receiverReportIfDueXx (t : ℕ) : Action H M PUnit := do
  let s ← get
  if s.nextRr ≤ t ∧ mmpSendRr C = true then
    let r := C.mmp.buildReceiverReport t s.mmp
    set { s with mmp := r.2 }
    sendReport C msgReceiverReport r.1
    modify fun s => { s with nextRr := t + C.mmp.receiverReportInterval s.mmp }
  else
    return ⟨⟩

def plainReportIfDue (t : ℕ) : Action H M PUnit := do
  let s ← get
  if s.nextSr ≤ t then
    set { s with nextSr := t + fromSecs C.timing.heartbeatIntervalSecs }
    match C.build with
    | .ik => sendPlainReport C t
    | .xx => return ⟨⟩
  else
    return ⟨⟩

def reportsIfDue (t : ℕ) : Action H M PUnit := do
  match C.mmpFeature, C.build with
  | true, .ik => senderReportIfDueIk C t
  | true, .xx =>
      senderReportIfDueXx C t
      receiverReportIfDueXx C t
  | false, _ => plainReportIfDue C t

def tickIfDue (tick : Option ℕ) (t : ℕ) : Action H M PUnit := do
  match tick with
  | none => return ⟨⟩
  | some deadline =>
      if deadline ≤ t then
        let t ← now C
        let s ← get
        let r := C.handler.onTick t s.handler
        set { s with handler := r.2 }
        match r.1 with
        | .sendDatagram data => sendSessionDatagram C data
        | _ => return ⟨⟩
      else
        return ⟨⟩

def recvBufSize : ℕ := 1500

def afterFrames (tick : Option ℕ) : Action H M PUnit := do
  let t ← now C
  let _ ← heartbeatIfDue C t
  reportsIfDue C t
  tickIfDue C tick t

/-- The frames in the receive buffer, and what is due afterwards. -/
def onBuffer (tick : Option ℕ) : Action H M PUnit := do
  let s ← get
  let r := splitFrames C.build C.rawFraming s.rbuf s.rbuf.length s.rpos
  handleFrames C r.1
  modify fun s =>
    if s.rbuf.length ≤ r.2 then { s with rbuf := [], rpos := 0 } else { s with rpos := r.2 }
  afterFrames C tick

def onRecv (tick : Option ℕ) (chunk : Bytes) : Action H M PUnit := do
  let s ← get
  if recvBufSize < chunk.length then
    throw .panic
  else if C.rawFraming then
    set { s with rbuf := chunk, rpos := 0 }
    onBuffer C tick
  else if maxFrameSize < s.rbuf.length + chunk.length then
    set { s with rbuf := [], rpos := 0 }
  else
    set { s with rbuf := s.rbuf ++ chunk }
    onBuffer C tick

/-- The timer's cutover: an epoch of our own rekey is used from now on. -/
def timerCutover (t : ℕ) : Action H M PUnit := do
  let s ← get
  if s.pendSelf = true ∧ s.pend.isSome then
    promote .timer
    modify fun s => { s with pendSelf := false }
    afterPromotion C t t
  else
    return ⟨⟩

def rekeyTriggered (t : ℕ) (s : Steady H M) : Bool :=
  let dampened := match s.lastPeerRekeyAt with
    | some peerAt => asSecs (t - peerAt) < rekeyDampeningSecs
    | none => false
  let bySecs := 0 < C.timing.rekeyAfterSecs ∧
    C.timing.rekeyAfterSecs ≤ asSecs (t - s.sessionStarted)
  let byMessages := 0 < C.timing.rekeyAfterMessages ∧
    C.timing.rekeyAfterMessages ≤ s.cur.sendCtr.toNat
  s.rekeyInit.isNone && s.pend.isNone && !dampened && (bySecs ∨ byMessages)

def rekeyIfTriggered (t : ℕ) : Action H M PUnit := do
  let s ← get
  if rekeyTriggered C t s then
    match ← initiateRekey C with
    | none => return ⟨⟩
    | some ri =>
        modify fun s => { s with rekeyInit := some ri }
        note (.began ri.ourIndex)
  else
    return ⟨⟩

/-- The resend ladder: msg1 once more, or the rekey is given up. -/
def resendOrAbandon (t : ℕ) : Action H M PUnit := do
  let s ← get
  match s.rekeyInit with
  | none => return ⟨⟩
  | some ri =>
      if ri.nextResendAt ≤ t then
        if C.timing.handshakeMaxResends ≤ ri.resends then
          set { s with rekeyInit := none }
        else
          let _ ← sendFrame C ri.msg1
          let delay := C.timing.handshakeResendTimeoutMs (ri.resends + 1)
          modify fun s =>
            { s with
              rekeyInit := some { ri with
                resends := ri.resends + 1
                nextResendAt := t + fromMillis delay } }
      else
        return ⟨⟩

def sweep (t : ℕ) : Action H M PUnit :=
  modify fun s =>
    if drainWindowSecs < asSecs (t - s.prevDrainBase) then { s with prev := none } else s

def heartbeatOrLeave (t : ℕ) : Action H M PUnit := do
  if ← heartbeatIfDue C t then
    let t ← now C
    let s ← get
    if s.policy.checkSilentPeer t = .reject then
      sendDisconnect C discReasonResourceExhaustion
      throw (.err (.error .disconnected))
    else
      return ⟨⟩
  else
    return ⟨⟩

def onTimer (tick : Option ℕ) : Action H M PUnit := do
  let t ← now C
  timerCutover C t
  rekeyIfTriggered C t
  resendOrAbandon C t
  sweep t
  heartbeatOrLeave C t
  reportsIfDue C t
  tickIfDue C tick t

inductive Input where
  | recv (chunk : Bytes)
  | recvError
  | timer
  deriving DecidableEq

def checkLink : Action H M PUnit := do
  let t ← now C
  let s ← get
  if C.timing.linkDeadTimeoutSecs < asSecs (t - s.lastRx) then
    sendDisconnect C discReasonTransportFailure
    throw (.err (.error .timeout))
  else
    return ⟨⟩

def iteration (input : Input) : Action H M PUnit := do
  checkLink C
  let s ← get
  let tick := C.handler.pollAt s.handler
  match input with
  | .recv chunk => onRecv C tick chunk
  | .recvError =>
      sendDisconnect C discReasonTransportFailure
      throw (.err (.error .disconnected))
  | .timer => onTimer C tick

def run : List Input → Action H M PUnit
  | [] => return ⟨⟩
  | input :: inputs => do
      iteration C input
      run inputs

/-- The state in which `steady` enters its loop, after a handshake with the outcome `ks`, `kr` and
`them`. -/
def enter (ks kr : Block 32) (them : SessionIndex) (policy : PeerPolicy) (handler : H) (mmp : M)
    (calls : ℕ) : Steady H M where
  policy := policy
  rbuf := []
  rpos := 0
  handler := handler
  mmp := mmp
  nextHb := C.world.clock calls + fromSecs 1
  nextSr := C.world.clock (calls + 1) + fromSecs (C.timing.heartbeatIntervalSecs / 2)
  nextRr := C.world.clock (calls + 2) + fromSecs (C.timing.heartbeatIntervalSecs / 2)
  srStartCtr := 0
  srStartTs := UInt32.ofNat (asMillis (C.world.clock (calls + 3)))
  cur := EpochSlot.new ks kr them false .initial
  pend := none
  prev := none
  prevDrainBase := C.world.clock (calls + 4)
  badFrameGraceUntil :=
    C.world.clock (calls + 5) + fromSecs C.timing.badFrameGraceSecs
  sessionStarted := C.world.clock (calls + 6)
  rekeyInit := none
  pendSelf := false
  lastPeerRekeyAt := none
  lastRekeyMsg1 := none
  lastRekeyMsg2 := none
  lastFreshAnswerAt := none
  rekeyHs := none
  lastRx := C.world.clock (calls + 7)
  calls := calls + 8
  trace := [.key (.armed .initial ks kr false)]

inductive Entered : Steady H M → Prop where
  | intro (ks kr : Block 32) (them : SessionIndex) (policy : PeerPolicy) (handler : H) (mmp : M)
      (calls : ℕ) : Entered (enter C ks kr them policy handler mmp calls)

def after (s : Steady H M) (inputs : List Input) : Steady H M :=
  ((run C inputs).run s).state

def keysAfter (s : Steady H M) (inputs : List Input) : List KeyEvent :=
  (after C s inputs).keyTrace

end Steady
end Node
end Microfips

import Microfips.Node.Deadlines
import Microfips.Node.Handover
import Microfips.Node.Safety
import Microfips.Node.Slicing

/-!
# Received bytes do not panic a node

`handshake_ik` slices the ephemeral key off a received msg1 before it knows how long the message
is.  On a raw transport a msg1 has its full size; on a length-prefixed one a shorter msg1 panics
the node that answers it.  No other received bytes panic a handshake or the steady loop.
-/

namespace Microfips
namespace Node

open Noise Wire Mmp EStateM

/-! ## The receive buffer -/

namespace RecvBuffer

variable {b : RecvBuffer}

/-- The position is not behind the bytes: `len - pos` does not underflow. -/
def Within (b : RecvBuffer) : Prop :=
  b.rpos ≤ b.rbuf.length

theorem within_advance (n : ℕ) (b : RecvBuffer) : (b.advance n).Within :=
  (tidy_advance n b).rpos_le

theorem Within.compact (hb : b.Within) : b.compact.Within := by
  rw [RecvBuffer.compact]
  split
  · exact Nat.zero_le _
  · exact hb

theorem Within.nextLengthPrefixed {fuel : ℕ} (hb : b.Within) :
    (b.nextLengthPrefixed fuel).2.Within := by
  induction fuel generalizing b with
  | zero => exact hb
  | succ fuel ih =>
      rw [RecvBuffer.nextLengthPrefixed]
      split
      · exact hb
      · split
        · exact ih (within_advance _ b)
        · exact within_advance _ b

theorem Within.nextRaw {build : Build} (hb : b.Within) : (b.nextRaw build).2.Within := by
  rw [RecvBuffer.nextRaw]
  split
  · exact hb
  · exact within_advance _ b

theorem Within.next (build : Build) (rawFraming : Bool) (hb : b.Within) :
    (b.next build rawFraming).2.Within := by
  have hr : (if rawFraming then b.nextRaw build
      else b.nextLengthPrefixed b.rbuf.length).2.Within := by
    split
    · exact hb.nextRaw
    · exact hb.nextLengthPrefixed
  rw [RecvBuffer.next]
  split
  · exact hr.compact
  · exact hr

theorem Within.store {rawFraming : Bool} (hb : b.Within) (chunk : Bytes) :
    (b.store rawFraming chunk).Within := by
  rw [RecvBuffer.store]
  split
  · exact Nat.zero_le _
  · split
    · exact le_rfl
    · exact hb.trans (by simp)

end RecvBuffer

/-! ## A short msg1 -/

def msg1Payload (build : Build) (frame : Bytes) : Option Bytes :=
  match parseMessage build frame with
  | some (.msg1 _ noisePayload) => some noisePayload
  | _ => none

def ShortMsg1 (build : Build) (frame : Bytes) : Prop :=
  ∃ noisePayload ∈ msg1Payload build frame, noisePayload.length < 33

instance (build : Build) (frame : Bytes) : Decidable (ShortMsg1 build frame) :=
  inferInstanceAs (Decidable (∃ noisePayload ∈ msg1Payload build frame, _))

theorem length_of_msg1Payload {build : Build} {frame np : Bytes}
    (h : msg1Payload build frame = some np) :
    frame.getD 0 0 &&& 0x0F = FmpPhase.msg1.toUInt8 ∧ np.length + 8 = frame.length := by
  obtain ⟨idx, h⟩ : ∃ idx, parseMessage build frame = some (.msg1 idx np) := by
    rw [msg1Payload] at h
    split at h
    · cases h
      exact ⟨_, ‹_›⟩
    · cases h
  rw [parseMessage] at h
  split at h
  · cases h
  · rename_i phase flags hprefix
    rw [parsePrefix] at hprefix
    split_ifs at hprefix
    obtain ⟨rfl, -⟩ := Prod.mk.inj (Option.some.inj hprefix)
    dsimp only at h
    by_cases hphase : frame.getD 0 0 &&& 0x0F = FmpPhase.msg1.toUInt8
    · rw [if_pos hphase] at h
      split_ifs at h with hlen
      cases h
      refine ⟨hphase, ?_⟩
      simp only [List.length_drop, idxSize, commonPrefixSize] at hlen ⊢
      omega
    · rw [if_neg hphase] at h
      split_ifs at h <;> cases h

theorem not_shortMsg1_of_raw {build : Build} {data frame : Bytes} {n : ℕ}
    (h : extractRawFrame build data = some (frame, n)) :
    ¬ ShortMsg1 build (frame.take maxFrameSize) := by
  rintro ⟨np, hpayload, hshort⟩
  obtain ⟨hphase, hlen⟩ := length_of_msg1Payload hpayload
  have hfirst : ∀ total, 0 < total →
      ((data.take total).take maxFrameSize).getD 0 0 = data.getD 0 0 := by
    intro total hpos
    obtain ⟨k, rfl⟩ := Nat.exists_eq_succ_of_ne_zero hpos.ne'
    cases data <;> rfl
  have hfour : ¬ data.length < commonPrefixSize := by
    intro hlt
    rw [extractRawFrame, if_pos hlt] at h
    cases h
  rw [extractRawFrame, if_neg hfour] at h
  have hcommon : parseCommonPrefix data =
      some (data.getD 0 0 &&& 0x0F, Bytes.toNat (Bytes.slice 2 4 data)) := if_neg hfour
  cases hsize : fmpRawFrameSize build data with
  | some total =>
      rw [hsize] at h
      dsimp only at h
      split_ifs at h with htotal
      obtain ⟨rfl, rfl⟩ := Prod.mk.inj (Option.some.inj h)
      have hpos : 0 < total := by
        by_contra hzero
        obtain rfl : total = 0 := by omega
        simp at hlen
      rw [hfirst _ hpos] at hphase
      rw [fmpRawFrameSize, hcommon] at hsize
      dsimp only at hsize
      rw [if_pos hphase] at hsize
      split_ifs at hsize with hwire
      obtain rfl := Option.some.inj hsize
      have hwire : 66 ≤ msg1WireSize build ∨ msg1WireSize build = 41 := by
        cases build <;> decide
      simp only [List.length_take, maxFrameSize] at hlen
      omega
  | none =>
      rw [hsize, hcommon] at h
      dsimp only at h
      split_ifs at h with hestablished hlong
      obtain ⟨rfl, rfl⟩ := Prod.mk.inj (Option.some.inj h)
      have hdata := hfirst data.length (by simp only [commonPrefixSize] at hfour; omega)
      rw [List.take_length] at hdata
      rw [hdata, hestablished] at hphase
      cases hphase

/-! ## The handshake -/

namespace Handshake

variable {H M : Type}

/-- The node answers a msg1 of its peer: it does not stay the initiator. -/
def Answers (C : Config H M) (peerSentFirst : Bool) : Prop :=
  ∃ myPub, ecdhPubkey C.suite C.nsec = .ok myPub ∧ myAddr C myPub ≠ peerAddr C ∧
    ¬ (peerSentFirst = false ∧ (myAddr C myPub).bytes < (peerAddr C).bytes)

/-- The frame is not a short msg1 that `handshake_ik` answers. -/
def Whole (C : Config H M) (peerSentFirst : Bool) (frame : Bytes) : Prop :=
  C.build = .ik → Answers C peerSentFirst → ¬ ShortMsg1 C.build frame

/-- What makes the calls of a handshake safe that began with `calls` calls to the world. -/
structure Sound (peerSentFirst : Bool) (calls : ℕ) (s : Handshake H) : Prop where
  within : s.Within
  peerSentFirst_eq : s.peerSentFirst = peerSentFirst
  calls_le : calls ≤ s.calls

def PhaseSound (C : Config H M) : Phase → Prop
  | .opening o => ecdhPubkey C.suite C.nsec = .ok o.myPub
  | .answering a => a.responder.Ready

def ProgressSound (C : Config H M) (p : Progress) : Prop :=
  ∀ phase, p = .waits phase → PhaseSound C phase

def vitals (s : Handshake H) : RecvBuffer × Bool × ℕ :=
  (s.toRecvBuffer, s.peerSentFirst, s.calls)

variable {C : Config H M} {first : Bool} {n : ℕ}

theorem maintains_modify {f : Handshake H → Handshake H}
    (h : ∀ s, (f s).vitals = s.vitals) :
    Maintains (Sound first n) (modify f : HandshakeAction H PUnit) := by
  refine .modify fun s hs => ?_
  obtain ⟨hbuffer, hfirst, hcalls⟩ : _ ∧ _ ∧ _ := by simpa [vitals] using h s
  exact ⟨hbuffer ▸ hs.within, hfirst ▸ hs.peerSentFirst_eq, hcalls ▸ hs.calls_le⟩

variable {α : Type} {phase : Phase} {s t : Handshake H} {receptions : List Reception}

theorem maintains_ask (answer : ℕ → α) :
    Maintains (Sound first n) (ask answer : HandshakeAction H α) :=
  fun _ hs => ⟨hs.within, hs.peerSentFirst_eq, hs.calls_le.trans (Nat.le_succ _)⟩

theorem maintains_okOr (e : ProtocolError) (x : Option α) :
    Maintains (Sound first n) (okOr e x : HandshakeAction H α) := by
  cases x with
  | none => exact .throw_err _
  | some a => exact .pure a

theorem provides_orErr (f : NoiseError → ProtocolError) (x : Except NoiseError α) :
    Provides (Sound first n) (fun a => x = .ok a) (orErr f x : HandshakeAction H α) := by
  cases x with
  | error e => exact .throw_err _
  | ok a => exact .pure rfl

theorem provides_within {σ : Type} {Q : α → σ → Prop} {E : σ → Prop}
    {m : EStateM (Fault NoiseError) σ α} {object : σ} (hm : m.Meets object Q E)
    (f : NoiseError → ProtocolError) :
    Provides (Sound first n) (fun r => Q r.1 r.2)
      (within f m object : HandshakeAction H (α × σ)) := by
  intro s hs
  rw [Handshake.within]
  obtain ⟨r, hcall, hr⟩ | ⟨e, hcall⟩ := hm.call.cases
  · rw [hcall]
    exact ⟨hs, hr⟩
  · rw [hcall]
    exact hs

theorem maintains_transportSend (data : Bytes) :
    Maintains (Sound first n) (transportSend C data) := by
  refine (maintains_ask _).bind fun sent => ?_
  split
  · exact .pure _
  · exact .throw_err _

theorem maintains_sendFrame (payload : Bytes) :
    Maintains (Sound first n) (sendFrame C payload) := by
  refine Maintains.bind ?_ fun _ => maintains_modify fun _ => rfl
  rw [sendParts]
  split
  · exact maintains_transportSend _
  · exact (maintains_transportSend _).bind fun _ => maintains_transportSend _

theorem maintains_onEvent (event : NodeEvent) : Maintains (Sound first n) (onEvent C event) :=
  (maintains_ask _).bind fun _ => maintains_modify fun _ => rfl

theorem maintains_applyFmpNegotiation (negBytes : Bytes) :
    Maintains (Sound first n) (applyFmpNegotiation C negBytes) := by
  rw [applyFmpNegotiation]
  split
  · exact .throw_err _
  · split
    · exact .throw_err _
    · exact .throw_err _
    · split
      · exact maintains_modify fun _ => rfl
      · exact .throw_err _

/-- A negotiation payload is read by an object that is ready, and leaves it ready. -/
theorem provides_readNegotiation {σ : Type} {R : σ → Prop} {E : σ → Prop} (e : ProtocolError)
    {decrypt : Bytes → EStateM (Fault NoiseError) σ Bytes} {object : σ} (hobject : R object)
    (hdecrypt : ∀ encrypted, (decrypt encrypted).Meets object (fun _ t => R t) E)
    (encrypted : Option Bytes) :
    Provides (Sound first n) R (readNegotiation C e decrypt encrypted object) := by
  cases encrypted with
  | none => exact .pure hobject
  | some encrypted =>
      refine (provides_within (hdecrypt encrypted) _).bind fun r hr => ?_
      exact (maintains_applyFmpNegotiation _).provides_bind fun _ => .pure hr

theorem maintains_newInitiator (myPub : Block 33) (eph : Block 32) :
    Maintains (Sound first n) (newInitiator C myPub eph) := by
  rw [newInitiator]
  split
  · refine (provides_orErr _ _).maintains_bind fun i _ => ?_
    exact (provides_within (NoiseIkInitiator.meets_writeMessage1 _ _ _) _).maintains_bind
      fun _ _ => .pure _
  · refine (provides_orErr _ _).maintains_bind fun i _ => ?_
    exact (provides_within (NoiseXxInitiator.meets_writeMessage1 _) _).maintains_bind
      fun _ _ => .pure _

theorem provides_begin : Provides (Sound first n) (PhaseSound C) (begin C) := by
  refine (provides_orErr _ _).bind fun myPub hmyPub => (maintains_ask _).provides_bind fun eph => ?_
  refine (maintains_newInitiator _ _).provides_bind fun r => ?_
  refine (maintains_ask _).provides_bind fun ourIndex => ?_
  refine (maintains_okOr _ _).provides_bind fun msg1 => .get_bind fun s hs => ?_
  split
  · exact ⟨hs, hmyPub⟩
  · refine (maintains_sendFrame _).provides_bind (fun _ => ?_) s hs
    refine (maintains_onEvent _).provides_bind fun _ => ?_
    exact .pure (show PhaseSound C (.opening _) from hmyPub)

theorem maintains_sendMsg3 (o : Opening) {hs : NoiseXxInitiator} (hready : hs.Ready)
    (senderIdx : SessionIndex) : Maintains (Sound first n) (sendMsg3 C o hs senderIdx) := by
  refine (provides_within (NoiseXxInitiator.meets_writeMessage3 hready _ _ _) _).maintains_bind
    fun n3 hn3 => (maintains_okOr _ _).bind fun neg => ?_
  refine (provides_within (NoiseXxInitiator.meets_encryptPayload hn3.1 _ _) _).maintains_bind
    fun sealedNeg _ => (maintains_okOr _ _).bind fun msg3 => ?_
  exact (maintains_sendFrame _).bind fun _ => .pure _

theorem maintains_completeXx (o : Opening) (hs : NoiseXxInitiator) (senderIdx : SessionIndex)
    (np : Bytes) : Maintains (Sound first n) (completeXx C o hs senderIdx np) := by
  refine (provides_within (NoiseXxInitiator.meets_readMessage2 _) _).maintains_bind fun r hr => ?_
  split
  · refine Provides.maintains_bind (Q := NoiseXxInitiator.Ready) ?_ fun hs hready => ?_
    · exact provides_readNegotiation _ hr (NoiseXxInitiator.meets_decryptPayload hr · _) _
    · exact (maintains_sendMsg3 o hready senderIdx).bind fun _ => .pure _
  · exact .throw_err _

theorem maintains_complete (o : Opening) (senderIdx : SessionIndex) (np : Bytes) :
    Maintains (Sound first n) (complete C o senderIdx np) := by
  rw [complete]
  split
  · exact (provides_within (NoiseIkInitiator.meets_readMessage2 _) _).maintains_bind
      fun _ _ => .pure _
  · exact maintains_completeXx _ _ _ _

theorem maintains_answerIk (peerSenderIdx : SessionIndex) {np : Bytes} (hlen : 33 ≤ np.length) :
    Maintains (Sound first n) (answerIk C peerSenderIdx np) := by
  rw [answerIk, if_neg (Nat.not_lt.mpr hlen)]
  refine (provides_orErr _ _).maintains_bind fun responder hnew => ?_
  refine (provides_within (NoiseIkResponder.meets_readMessage1
    (NoiseIkResponder.ready_of_new hnew) _) _).maintains_bind fun r _ => ?_
  split
  · refine (maintains_ask _).bind fun respEph => ?_
    refine (provides_within (NoiseIkResponder.meets_writeMessage2 _ _ _) _).maintains_bind
      fun n2 _ => (maintains_ask _).bind fun respIndex => (maintains_okOr _ _).bind fun msg2 => ?_
    exact (maintains_sendFrame _).bind fun _ => .pure _
  · exact .throw_err _

theorem provides_writeMsg2 (responder : NoiseXxResponder) (respEph : Block 32) :
    Provides (Sound first n) (fun r => r.2.Ready) (writeMsg2 C responder respEph) := by
  refine (provides_within (NoiseXxResponder.meets_writeMessage2 _ _ _) _).bind fun n2 hn2 => ?_
  refine (maintains_okOr _ _).provides_bind fun neg => ?_
  exact (provides_within (NoiseXxResponder.meets_encryptPayload hn2 _ _) _).bind
    fun sealedNeg hready => .pure hready

theorem provides_answerXx (peerSenderIdx : SessionIndex) (np : Bytes) :
    Provides (Sound first n) (fun a => a.responder.Ready) (answerXx C peerSenderIdx np) := by
  refine (provides_orErr _ _).bind fun responder _ => ?_
  refine (provides_within (NoiseXxResponder.meets_readMessage1 _) _).bind fun r _ => ?_
  refine (maintains_ask _).provides_bind fun respEph => ?_
  refine (provides_writeMsg2 _ _).bind fun n2 hn2 => (maintains_ask _).provides_bind fun idx => ?_
  refine (maintains_okOr _ _).provides_bind fun msg2 => ?_
  exact (maintains_sendFrame _).provides_bind fun _ => .pure hn2

theorem provides_onMsg1 {o : Opening} (ho : ecdhPubkey C.suite C.nsec = .ok o.myPub)
    (peerSenderIdx : SessionIndex) {np : Bytes}
    (hlen : C.build = .ik → Answers C first → 33 ≤ np.length) :
    Provides (Sound first n) (ProgressSound C) (onMsg1 C o peerSenderIdx np) := by
  refine .get_bind fun s hs => ?_
  split
  · exact hs
  · rename_i hne
    split
    · refine ⟨hs, fun phase hphase => ?_⟩
      cases hphase
      exact ho
    · rename_i htie
      rw [hs.peerSentFirst_eq] at htie
      have hanswers : Answers C first := ⟨o.myPub, ho, hne, htie⟩
      rw [answer]
      split
      · rename_i hbuild
        refine (maintains_answerIk _ (hlen hbuild hanswers)).provides_bind (fun outcome => ?_) s hs
        exact .pure (by rintro phase ⟨⟩)
      · refine (provides_answerXx _ _).bind (fun a ha => .pure fun phase hphase => ?_) s hs
        cases hphase
        exact ha

theorem maintains_acceptMsg3 {a : Answering} (ha : a.responder.Ready) (np : Bytes) :
    Maintains (Sound first n) (acceptMsg3 C a np) := by
  refine (provides_within (NoiseXxResponder.meets_readMessage3 ha _) _).maintains_bind
    fun r hr => ?_
  refine Provides.maintains_bind (Q := NoiseXxResponder.Ready) ?_ fun responder _ => ?_
  · exact provides_readNegotiation _ hr (NoiseXxResponder.meets_decryptPayload hr · _) _
  · split
    · exact .pure _
    · exact .throw_err _

theorem provides_onFrame (hphase : PhaseSound C phase) {frame : Bytes}
    (hframe : Whole C first frame) :
    Provides (Sound first n) (ProgressSound C) (onFrame C phase frame) := by
  cases phase with
  | opening o =>
      rw [onFrame, onFrameOpening]
      split
      · exact .throw_err _
      · exact (maintains_complete _ _ _).provides_bind fun _ => .pure (by rintro phase ⟨⟩)
      · rename_i peerSenderIdx np hparse
        refine provides_onMsg1 (o := { o with resendCount := 0 }) hphase _ fun hbuild hanswers =>
          Nat.le_of_not_lt fun hshort => ?_
        exact hframe hbuild hanswers ⟨np, by rw [msg1Payload, hparse]; rfl, hshort⟩
      · refine .pure fun phase h => ?_
        cases h
        exact hphase
  | answering a =>
      rw [onFrame, onFrameAnswering]
      split
      · exact .throw_err _
      · exact (maintains_acceptMsg3 hphase _).provides_bind fun _ => .pure (by rintro phase ⟨⟩)
      · refine .pure fun phase h => ?_
        cases h
        exact hphase

theorem provides_onTimeout (hphase : PhaseSound C phase) :
    Provides (Sound first n) (PhaseSound C) (onTimeout C phase) := by
  cases phase with
  | opening o =>
      refine Provides.bind (Q := fun o' => o'.myPub = o.myPub) (.get_bind fun s hs => ?_)
        fun o' ho' => .pure ?_
      · split
        · exact hs
        · split
          · exact ⟨hs, rfl⟩
          · refine (maintains_sendFrame _).provides_bind (fun _ => ?_) s hs
            exact .pure rfl
      · exact hphase.trans (congrArg _ ho'.symm)
  | answering a =>
      refine Provides.bind (Q := fun a' => a'.responder = a.responder) ?_ fun a' ha' => .pure ?_
      · rw [onTimeoutAnswering]
        split
        · exact .throw_err _
        · exact (maintains_sendFrame _).provides_bind fun _ => .pure rfl
      · exact (congrArg NoiseXxResponder.Ready ha').mpr hphase

/-- `recv_frame` finds the position inside the buffer.  A raw transport gives it whole frames. -/
theorem provides_recvFrame :
    Provides (Sound first n)
      (fun r => ∀ frame ∈ r, C.rawFraming = true → ¬ ShortMsg1 C.build frame) (recvFrame C) := by
  refine .get_bind fun s hs => ?_
  rw [if_neg (Nat.not_lt.mpr hs.within)]
  have hwithin := hs.within.next C.build C.rawFraming
  dsimp only
  split
  · exact .set_bind ⟨⟨hwithin, hs.peerSentFirst_eq, hs.calls_le⟩, by rintro frame ⟨⟩⟩
  · rename_i frame hframe
    refine .set_bind ⟨⟨hwithin, hs.peerSentFirst_eq, hs.calls_le⟩, fun frame' hsome hraw => ?_⟩
    obtain rfl := Option.some.inj hsome
    rw [RecvBuffer.next, hraw, if_pos rfl, RecvBuffer.nextRaw] at hframe
    cases hextract : extractRawFrame C.build s.pending with
    | none =>
        rw [hextract] at hframe
        cases hframe
    | some r =>
        rw [hextract] at hframe
        obtain rfl := Option.some.inj hframe
        exact not_shortMsg1_of_raw (n := r.2) hextract

/-! ## The frames of a handshake -/

def Grows (s t : Handshake H) : Prop :=
  s.received <:+ t.received

theorem Grows.refl (s : Handshake H) : Grows s s :=
  List.suffix_refl _

theorem Grows.trans {u : Handshake H} (h : Grows s t) (h' : Grows t u) : Grows s u :=
  List.IsSuffix.trans h h'

theorem grows_bind {β : Type} {m : HandshakeAction H α} {f : α → HandshakeAction H β}
    (hm : Keeps Grows m) (hf : ∀ a, Keeps Grows (f a)) : Keeps Grows (m >>= f) := by
  refine .bind ?_ ?_ hm hf
  · exact id
  · exact Grows.trans

theorem grows_of_leaves {m : HandshakeAction H α} (hm : Leaves inbox m) : Keeps Grows m := by
  intro s
  have hinbox : (m.run s).state.inbox = s.inbox := hm s
  have hreceived : (m.run s).state.received = s.received := congrArg Prod.snd hinbox
  rw [Grows, hreceived]

theorem grows_pure (a : α) : Keeps Grows (pure a : HandshakeAction H α) :=
  .pure Grows.refl a

theorem grows_recvFrame : Keeps Grows (recvFrame C) := by
  refine .get_bind fun s => ?_
  split
  · exact Grows.refl _
  · dsimp only
    split
    · exact Grows.refl _
    · exact List.suffix_cons _ _

theorem grows_drain (fuel : ℕ) (phase : Phase) : Keeps Grows (drain C fuel phase) := by
  induction fuel generalizing phase with
  | zero => exact grows_pure _
  | succ fuel ih =>
      rw [drain]
      refine grows_bind grows_recvFrame fun r => ?_
      split
      · exact grows_pure _
      · refine grows_bind (grows_of_leaves (leaves_onFrame C _ _)) fun p => ?_
        split
        · exact ih _
        · exact grows_pure _

theorem grows_receive (phase : Phase) (r : Reception) : Keeps Grows (receive C phase r) := by
  cases r with
  | chunk data =>
      refine .get_bind fun s => ?_
      split
      · exact Grows.refl _
      · exact grows_drain _ _ { s with toRecvBuffer := s.toRecvBuffer.store C.rawFraming data }
  | closed => exact .throw_error Grows.refl _
  | timeout => exact grows_bind (grows_of_leaves (leaves_onTimeout C _)) fun _ => grows_pure _

theorem grows_await (receptions : List Reception) (phase : Phase) :
    Keeps Grows (await C receptions phase) := by
  induction receptions generalizing phase with
  | nil => exact grows_pure _
  | cons r receptions ih =>
      rw [await]
      refine grows_bind (grows_receive _ _) fun p => ?_
      split
      · exact ih _
      · exact grows_pure _

theorem mem_received_of_recvFrame {frame : Bytes} (h : (recvFrame C).run s = .ok (some frame) t) :
    frame ∈ t.received := by
  rw [recvFrame, EStateM.run_get_bind] at h
  split at h
  · cases h
  · dsimp only at h
    split at h
    · cases h
    · obtain ⟨hframe, rfl⟩ := Result.ok.inj h
      obtain rfl := Option.some.inj hframe
      exact List.mem_cons_self

/-- On a length-prefixed transport no frame in the record is a short msg1 that is answered. -/
def AllWhole (C : Config H M) (first : Bool) (s : Handshake H) : Prop :=
  C.rawFraming = false → ∀ frame ∈ s.received, Whole C first frame

theorem AllWhole.of_grows (ht : AllWhole C first t) (h : Grows s t) : AllWhole C first s :=
  fun hraw frame hframe => ht hraw frame (h.subset hframe)

theorem meets_drain {fuel : ℕ} (hs : Sound first n s) (hphase : PhaseSound C phase)
    (hwhole : AllWhole C first ((drain C fuel phase).run s).state) :
    (drain C fuel phase).Meets s (fun p t => Sound first n t ∧ ProgressSound C p)
      (Sound first n) := by
  induction fuel generalizing phase s with
  | zero =>
      refine ⟨hs, fun phase' h => ?_⟩
      cases h
      exact hphase
  | succ fuel ih =>
      rw [drain] at hwhole ⊢
      obtain ⟨r, u, hrecv, hu, hr⟩ | ⟨e, u, hrecv, hu⟩ := (provides_recvFrame s hs).cases
      · rw [EStateM.run_bind_ok hrecv] at hwhole
        rw [Meets, EStateM.run_bind_ok hrecv]
        cases r with
        | none =>
            refine ⟨hu, fun phase' h => ?_⟩
            cases h
            exact hphase
        | some frame =>
            dsimp only at hwhole ⊢
            have hframe : Whole C first frame := by
              intro hbuild hanswers
              cases hraw : C.rawFraming with
              | true => exact hr frame rfl hraw
              | false =>
                  refine hwhole.of_grows
                    (grows_bind (grows_of_leaves (leaves_onFrame C _ _)) (fun p => ?_) u) hraw frame
                    (mem_received_of_recvFrame hrecv) hbuild hanswers
                  split
                  · exact grows_drain _ _
                  · exact grows_pure _
            obtain ⟨p, v, hon, hv, hp⟩ | ⟨e, v, hon, hv⟩ :=
              (provides_onFrame hphase hframe u hu).cases
            · rw [EStateM.run_bind_ok hon] at hwhole ⊢
              cases p with
              | waits phase' => exact ih hv (hp phase' rfl) hwhole
              | returns outcome => exact ⟨hv, by rintro phase' ⟨⟩⟩
            · rw [EStateM.run_bind_error hon]
              exact hv
      · rw [Meets, EStateM.run_bind_error hrecv]
        exact hu

theorem meets_receive {r : Reception} (hs : Sound first n s) (hphase : PhaseSound C phase)
    (hchunk : ∀ chunk, r = .chunk chunk → chunk.length ≤ Steady.recvBufSize)
    (hwhole : AllWhole C first ((receive C phase r).run s).state) :
    (receive C phase r).Meets s (fun p t => Sound first n t ∧ ProgressSound C p)
      (Sound first n) := by
  cases r with
  | chunk data =>
      rw [receive, EStateM.run_get_bind, if_neg (Nat.not_lt.mpr (hchunk data rfl))] at hwhole
      refine .get_bind ?_
      rw [if_neg (Nat.not_lt.mpr (hchunk data rfl))]
      refine .set_bind (meets_drain ?_ hphase hwhole)
      exact ⟨hs.within.store data, hs.peerSentFirst_eq, hs.calls_le⟩
  | closed => exact hs
  | timeout =>
      refine (provides_onTimeout hphase).bind (fun phase' h => .pure fun phase'' heq => ?_) s hs
      cases heq
      exact h

theorem meets_await (hs : Sound first n s) (hphase : PhaseSound C phase)
    (hchunks : ∀ chunk, .chunk chunk ∈ receptions → chunk.length ≤ Steady.recvBufSize)
    (hwhole : AllWhole C first ((await C receptions phase).run s).state) :
    (await C receptions phase).Meets s (fun _ t => Sound first n t) (Sound first n) := by
  induction receptions generalizing phase s with
  | nil => exact hs
  | cons r receptions ih =>
      have hsplit : Grows ((receive C phase r).run s).state
          ((await C (r :: receptions) phase).run s).state := by
        rw [await, EStateM.run_bind]
        cases hrecv : (receive C phase r).run s with
        | ok p t =>
            cases p with
            | waits phase' => exact grows_await _ _ t
            | returns outcome => exact Grows.refl _
        | error e t => exact Grows.refl _
      have hstep := meets_receive hs hphase
        (fun chunk h => hchunks chunk (h ▸ List.mem_cons_self)) (hwhole.of_grows hsplit)
      rw [await] at hwhole ⊢
      obtain ⟨p, t, hrecv, ht, hp⟩ | ⟨e, t, hrecv, ht⟩ := hstep.cases
      · rw [EStateM.run_bind_ok hrecv] at hwhole
        rw [Meets, EStateM.run_bind_ok hrecv]
        cases p with
        | waits phase' =>
            exact ih ht (hp phase' rfl)
              (fun chunk h => hchunks chunk (List.mem_cons_of_mem _ h)) hwhole
        | returns outcome => exact ht
      · exact .of_err (EStateM.run_bind_error hrecv) ht

theorem suffix_of_await {rest : List Reception} {p : Progress}
    (h : (await C receptions phase).run s = .ok (p, rest) t) : rest <:+ receptions := by
  induction receptions generalizing phase s with
  | nil =>
      obtain ⟨hp, -⟩ := Result.ok.inj h
      obtain ⟨-, rfl⟩ := Prod.mk.inj hp
      exact List.suffix_refl _
  | cons r receptions ih =>
      rw [await] at h
      obtain ⟨q, u, -, h⟩ := exists_of_run_bind h
      cases q with
      | waits phase' => exact (ih h).trans (List.suffix_cons _ _)
      | returns outcome =>
          obtain ⟨hp, -⟩ := Result.ok.inj h
          obtain ⟨-, rfl⟩ := Prod.mk.inj hp
          exact List.suffix_cons _ _

theorem mem_of_mem_rest {rest : List Reception} {p : Progress}
    (h : (run C receptions).run s = .ok (p, rest) t) {r : Reception} (hr : r ∈ rest) :
    r ∈ receptions := by
  obtain ⟨phase, u, -, hawait⟩ := exists_of_run_bind h
  exact (suffix_of_await hawait).subset hr

theorem meets_run (hs : Sound first n s)
    (hchunks : ∀ chunk, .chunk chunk ∈ receptions → chunk.length ≤ Steady.recvBufSize)
    (hwhole : AllWhole C first ((run C receptions).run s).state) :
    (run C receptions).Meets s (fun _ t => Sound first n t) (Sound first n) := by
  rw [run] at hwhole ⊢
  obtain ⟨phase, t, hbegin, ht, hphase⟩ | ⟨e, t, hbegin, ht⟩ := (provides_begin (C := C) s hs).cases
  · rw [EStateM.run_bind_ok hbegin] at hwhole
    rw [Meets, EStateM.run_bind_ok hbegin]
    exact meets_await ht hphase hchunks hwhole
  · exact .of_err (EStateM.run_bind_error hbegin) ht

end Handshake

/-! ## The session -/

namespace Scenario

def answerer : Config PUnit Watched where
  suite := bob.suite
  build := bob.build
  mmpFeature := true
  usizeBits := bob.usizeBits
  timing := bob.timing
  nsec := bob.nsec
  peerNpub := bob.peerNpub
  rawFraming := false
  ourProfile := bob.ourProfile
  peerWantsSr := bob.peerWantsSr
  peerWantsRr := bob.peerWantsRr
  epoch := bob.epoch
  handler := bob.handler
  mmp := Watched.ops noFloats bob.build
  world := { bob.world with clock := fun _ => 0 }

def wholeMsg1 : List Reception :=
  [.chunk (encodeFrame (lastOf streaming false [])), .chunk (encodeFrame following), .timeout]

def emptyMsg1 : Bytes :=
  buildPrefix .ik .msg1 0 4 ++ idxBytes 0

end Scenario

variable {H : Type}

namespace SessionRun

def panicked {M : Type} : SessionRun H M → Bool
  | .handshake (.error .panic _) => true
  | .steady _ _ (.error .panic _) => true
  | _ => false

def inOrder : SessionRun H Watched → Bool
  | .handshake _ => true
  | .steady _ _ r => r.state.mmp.inOrder

end SessionRun

theorem Config.Regular.negotiated {C : Config H Watched} {F : Floats} (hC : C.Regular F)
    (s : Handshake H) : (negotiated C s).Regular F where
  clock := hC.clock
  onMessage := hC.onMessage
  onTick := hC.onTick
  mmp := hC.mmp

theorem sound_enterSteady {C : Config H Watched} {F : Floats} (hC : C.Regular F)
    (policy : PeerPolicy) {mmp : Watched} (outcome : Outcome) {s : Handshake H} {n : ℕ}
    (hn : n ≤ s.calls) (hmmp : mmp.InPast (C.world.clock n)) :
    Steady.Sound (negotiated C s) (enterSteady C policy mmp outcome s) := by
  refine ⟨C.world.clock n, fun k hk => hC.clock ?_, by rintro r ⟨⟩, hmmp, by rintro hs ⟨⟩⟩
  have hcalls : s.calls + 2 + 8 ≤ k := hk
  omega

open Handshake in
/-- A session on any bytes, in chunks that the receive buffer of the transport holds.  If no frame
that the handshake took is a short msg1 that `handshake_ik` answers, then neither the handshake nor
the steady loop panics, every `duration_since` of the measurements is in order, and every function
on the receive path stays inside the bounds of what it reads. -/
theorem session_not_panicked {C : Config H Watched} {F : Floats} (hC : C.Regular F)
    (policy : PeerPolicy) {mmp : Watched} {s : Handshake H}
    (hmmp : mmp.InPast (C.world.clock s.calls)) {receptions : List Reception}
    (hchunks : ∀ chunk, .chunk chunk ∈ receptions → chunk.length ≤ Steady.recvBufSize)
    (hwhole : C.build = .ik → C.rawFraming = false → Answers C s.peerSentFirst → ∀ frame ∈
      ((Handshake.run C receptions).run { s with toRecvBuffer := .empty }).state.received,
        ¬ ShortMsg1 C.build frame) :
    (session C policy mmp receptions s).panicked = false ∧
      (session C policy mmp receptions s).inOrder = true ∧
      ∀ data, Sliced.InBounds C.build data := by
  have hstart : Handshake.Sound s.peerSentFirst s.calls { s with toRecvBuffer := .empty } :=
    ⟨le_rfl, rfl, le_rfl⟩
  have hrun := meets_run (C := C) hstart hchunks
    fun hraw frame hframe hbuild hanswers => hwhole hbuild hraw hanswers frame hframe
  refine and_assoc.mp ⟨?_, Sliced.inBounds C.build⟩
  rw [session]
  obtain ⟨⟨p, rest⟩, t, hok, ht⟩ | ⟨e, t, herr, -⟩ := hrun.cases
  · rw [hok]
    cases p with
    | waits phase => exact ⟨rfl, rfl⟩
    | returns outcome =>
        have hrest : ∀ chunk, .recv chunk ∈ rest.map Reception.toInput →
            chunk.length ≤ Steady.recvBufSize := by
          intro chunk hchunk
          obtain ⟨r, hr, hinput⟩ := List.mem_map.mp hchunk
          cases r with
          | chunk data =>
              cases hinput
              exact hchunks chunk (mem_of_mem_rest hok hr)
          | closed => cases hinput
          | timeout => cases hinput
        have hsteady := Steady.maintains_run (hC.negotiated t) hrest _
          (sound_enterSteady hC policy outcome ht.calls_le hmmp)
        dsimp only
        obtain ⟨a, u, hok, hu⟩ | ⟨e, u, herr, hu⟩ := hsteady.cases
        · rw [hok]
          exact ⟨rfl, hu.choose_spec.mmp.inOrder⟩
        · rw [herr]
          exact ⟨rfl, hu.choose_spec.mmp.inOrder⟩
  · rw [herr]
    exact ⟨rfl, rfl⟩

theorem Scenario.answerer_regular : answerer.Regular noFloats where
  clock := fun _ _ _ => le_rfl
  onMessage := by
    rintro t msgType payload h data ⟨⟩
  onTick := by
    rintro t h data ⟨⟩
  mmp := rfl

open Scenario in
theorem session_not_panicked_wholeMsg1 :
    (returned ((Handshake.run answerer wholeMsg1).run (fresh true))).isSome = true ∧
      (session answerer policy .new wholeMsg1 (fresh true)).panicked = false := by
  have h : (returned ((Handshake.run answerer wholeMsg1).run (fresh true))).isSome = true ∧
      (∀ r ∈ wholeMsg1, ∀ chunk ∈ Handshake.chunks [r], chunk.length ≤ Steady.recvBufSize) ∧
      ∀ frame ∈ ((Handshake.run answerer wholeMsg1).run (fresh true)).state.received,
        ¬ ShortMsg1 answerer.build frame := by
    decide +kernel
  obtain ⟨hreturned, hchunks, hwhole⟩ := h
  refine ⟨hreturned, (session_not_panicked answerer_regular policy (Watched.inPast_new _)
    (s := fresh true) (fun chunk hchunk => ?_) fun _ _ _ => hwhole).1⟩
  exact hchunks _ hchunk chunk List.mem_cons_self

open Scenario in
/-- A msg1 of eight bytes panics the node that answers it. -/
theorem session_panicked_emptyMsg1 :
    (encodeFrame emptyMsg1).length ≤ Steady.recvBufSize ∧
      (session answerer policy .new [.chunk (encodeFrame emptyMsg1)] (fresh true)).panicked =
        true := by
  decide +kernel

end Node
end Microfips

import Microfips.Node.Reassembly
import Microfips.Node.Unseen

/-!
# From the handshake to the steady loop

On a length-prefixed transport the handshake and the steady loop read one stream through one
buffer.  The handshake moves what it has not read to the front before it waits, so that a chunk of
at most 547 bytes always fits, and its frames are the first frames of the stream.  When it
returns, `session` resets the buffer: the bytes that came in one chunk with the last frame of the
handshake are lost.
-/

namespace Microfips
namespace Node

open Noise Wire EStateM

/-! ## The receive buffer -/

namespace RecvBuffer

variable {b b' : RecvBuffer}

def Tidy (b : RecvBuffer) : Prop :=
  b.rpos < b.rbuf.length ∨ b = empty

theorem tidy_empty : Tidy empty :=
  .inr rfl

theorem Tidy.rpos_le (hb : b.Tidy) : b.rpos ≤ b.rbuf.length := by
  rcases hb with hlt | rfl
  · exact hlt.le
  · exact le_rfl

theorem tidy_advance (n : ℕ) (b : RecvBuffer) : Tidy (b.advance n) := by
  rw [advance]
  split
  · exact tidy_empty
  · rename_i hlt
    exact .inl (Nat.lt_of_not_le hlt)

theorem advance_pending (n : ℕ) (b : RecvBuffer) : (b.advance n).pending = b.pending.drop n := by
  rw [advance, pending, pending, List.drop_drop]
  split
  · rename_i hle
    rw [List.drop_eq_nil_of_le hle]
    rfl
  · rfl

/-- What is read when the buffer is reset or moved is what is read from its front. -/
theorem Tidy.compact_eq (hb : b.Tidy) : b.compact = { rbuf := b.pending, rpos := 0 } := by
  rw [compact]
  split
  · rfl
  · rename_i hmoved
    rcases hb with hlt | rfl
    · have hpos : b.rpos = 0 := by omega
      cases b
      simp_all [pending]
    · rfl

/-- The buffer of a receiver that waits: all of it is to be read, and no frame is complete. -/
structure Waiting (b : RecvBuffer) : Prop where
  rpos_eq : b.rpos = 0
  next_eq : lengthPrefixed.next b.rbuf = none

theorem Waiting.pending_eq (hb : b.Waiting) : b.pending = b.rbuf := by
  rw [pending, hb.rpos_eq, List.drop_zero]

theorem waiting_empty : Waiting empty :=
  ⟨rfl, StreamDecoder.next_nil⟩

/-- A chunk of at most 547 bytes fits behind what a receiver waits with. -/
theorem Waiting.store (hb : b.Waiting) {chunk : Bytes} (hchunk : chunk.length ≤ 547) :
    (b.store false chunk).Tidy ∧ (b.store false chunk).pending = b.pending ++ chunk := by
  have hheld : b.rbuf.length ≤ 1501 := length_le_of_next_eq_none hb.next_eq
  have hstore : b.store false chunk = { b with rbuf := b.rbuf ++ chunk } := by
    rw [RecvBuffer.store, if_neg (by decide), if_neg (by simp only [maxFrameSize]; omega)]
  rw [hstore]
  constructor
  · cases hlen : (b.rbuf ++ chunk).length with
    | zero =>
        rw [List.length_eq_zero_iff.mp hlen, hb.rpos_eq]
        exact tidy_empty
    | succ n =>
        left
        dsimp only
        rw [hb.rpos_eq, hlen]
        exact Nat.succ_pos n
  · rw [hb.pending_eq, pending]
    dsimp only
    rw [hb.rpos_eq, List.drop_zero]

/-- What the receiver does with the buffer, in terms of the stream: whatever comes behind it,
what is decoded from the buffer after it is decoded behind the frames that it took. -/
def Takes (b : RecvBuffer) (frames : List Bytes) (b' : RecvBuffer) : Prop :=
  ∀ more units rest, lengthPrefixed.Decodes (b'.pending ++ more) units rest →
    ∃ units', lengthPrefixed.Decodes (b.pending ++ more) units' rest ∧
      units'.filter (· ≠ []) = frames ++ units.filter (· ≠ [])

theorem Takes.of_pending_eq (h : b'.pending = b.pending) : b.Takes [] b' :=
  fun _ units _ hunits => ⟨units, h ▸ hunits, rfl⟩

theorem Takes.refl (b : RecvBuffer) : b.Takes [] b :=
  .of_pending_eq rfl

theorem Takes.trans {c : RecvBuffer} {frames frames' : List Bytes} (h : b.Takes frames b')
    (h' : b'.Takes frames' c) : b.Takes (frames ++ frames') c := by
  intro more units rest hunits
  obtain ⟨units', hunits', hfilter'⟩ := h' more units rest hunits
  obtain ⟨units'', hunits'', hfilter''⟩ := h more units' rest hunits'
  exact ⟨units'', hunits'', by rw [hfilter'', hfilter', List.append_assoc]⟩

theorem takes_advance {frame : Bytes} {n : ℕ}
    (hnext : extractLengthPrefixedFrame b.pending = some (frame, n)) :
    b.Takes ([frame].filter (· ≠ [])) (b.advance n) := by
  intro more units rest hunits
  rw [advance_pending, ← List.drop_append_of_le_length (lengthPrefixed.le_length hnext)] at hunits
  refine ⟨frame :: units, .step (lengthPrefixed.next_append more hnext) hunits, ?_⟩
  rw [List.filter_cons, List.filter_cons]
  split <;> simp

theorem length_take_maxFrameSize {data frame : Bytes} {n : ℕ}
    (h : extractLengthPrefixedFrame data = some (frame, n)) : frame.take maxFrameSize = frame := by
  apply List.take_of_length_le
  obtain ⟨-, ⟨rfl, -⟩ | ⟨rfl, -, rfl, -, hmax⟩⟩ := extractLengthPrefixedFrame_cases h
  · exact Nat.zero_le _
  · rw [Bytes.slice, List.length_take]
    simp only [maxFrame, maxFrameSize] at hmax ⊢
    omega

/-- What `recv_frame_length_prefixed` does without waiting: it takes a frame, or finds that there
is no complete one. -/
theorem nextLengthPrefixed_takes {fuel : ℕ} (hb : b.Tidy) (hfuel : b.pending.length ≤ fuel) :
    (∃ b', b.nextLengthPrefixed fuel = (none, b') ∧ b'.Tidy ∧ b.Takes [] b' ∧
        lengthPrefixed.next b'.pending = none) ∨
      ∃ frame b', b.nextLengthPrefixed fuel = (some frame, b') ∧ b'.Tidy ∧ b.Takes [frame] b' ∧
        b'.pending.length < b.pending.length := by
  induction fuel generalizing b with
  | zero =>
      have hnil : b.pending = [] := List.length_eq_zero_iff.mp (Nat.le_zero.mp hfuel)
      exact .inl ⟨b, rfl, hb, .refl b, hnil ▸ StreamDecoder.next_nil⟩
  | succ fuel ih =>
      rw [nextLengthPrefixed]
      cases hnext : extractLengthPrefixedFrame b.pending with
      | none => exact .inl ⟨b, rfl, hb, .refl b, hnext⟩
      | some r =>
          obtain ⟨frame, n⟩ := r
          have htakes := takes_advance hnext
          have hpos := lengthPrefixed.pos hnext
          have hle := lengthPrefixed.le_length hnext
          have hshort : (b.advance n).pending.length < b.pending.length := by
            rw [advance_pending, List.length_drop]
            omega
          dsimp only
          by_cases hframe : frame = []
          · rw [if_pos hframe]
            rw [hframe] at htakes
            obtain ⟨b', hrun, htidy, htakes', hnone⟩ | ⟨frame', b', hrun, htidy, htakes', hlt⟩ :=
              ih (tidy_advance n b) (by omega)
            · exact .inl ⟨b', hrun, htidy, htakes.trans htakes', hnone⟩
            · exact .inr ⟨frame', b', hrun, htidy, htakes.trans htakes', hlt.trans hshort⟩
          · rw [if_neg hframe, length_take_maxFrameSize hnext]
            refine .inr ⟨frame, _, rfl, tidy_advance n b, ?_, hshort⟩
            simpa [hframe] using htakes

theorem pending_length_le (b : RecvBuffer) : b.pending.length ≤ b.rbuf.length := by
  rw [pending, List.length_drop]
  exact Nat.sub_le _ _

theorem next_takes (build : Build) (hb : b.Tidy) :
    (∃ b', b.next build false = (none, b') ∧ b'.Waiting ∧ b.Takes [] b') ∨
      ∃ frame b', b.next build false = (some frame, b') ∧ b'.Tidy ∧ b.Takes [frame] b' ∧
        b'.pending.length < b.pending.length := by
  obtain ⟨b', hrun, htidy, htakes, hnone⟩ | ⟨frame, b', hrun, htidy, htakes, hlt⟩ :=
    nextLengthPrefixed_takes hb b.pending_length_le
  · refine .inl ⟨b'.compact, by simp [next, hrun], ?_, ?_⟩
    · rw [htidy.compact_eq]
      exact ⟨rfl, hnone⟩
    · rw [htidy.compact_eq]
      exact htakes.trans (.of_pending_eq rfl)
  · exact .inr ⟨frame, b', by simp [next, hrun], htidy, htakes, hlt⟩

end RecvBuffer

/-! ## The handshake and the buffer -/

namespace Handshake

variable {H M : Type}

def inbox (s : Handshake H) : RecvBuffer × List Bytes :=
  (s.toRecvBuffer, s.received)

def inboxPart (H : Type) : Component (Handshake H) (RecvBuffer × List Bytes) where
  view := inbox
  put x s := { s with toRecvBuffer := x.1, received := x.2 }
  view_put _ _ := rfl
  put_view _ := rfl
  put_put _ _ _ := rfl

theorem apart_inboxPart : Apart (inboxPart H) := by
  constructor <;> intros <;> rfl

variable (C : Config H M)

theorem leaves_applyFmpNegotiation (negBytes : Bytes) :
    Leaves inbox (applyFmpNegotiation C negBytes) := by
  rw [applyFmpNegotiation]
  split
  · exact .throw _
  · split
    · exact .throw _
    · exact .throw _
    · split
      · exact .modify fun _ => rfl
      · exact .throw _

theorem leaves_within {σ α : Type} (f : NoiseError → ProtocolError)
    (m : EStateM (Fault NoiseError) σ α) (object : σ) :
    Leaves (inbox (H := H)) (within f m object) :=
  (blind_within (c := inboxPart H) f m object).leaves

theorem leaves_readNegotiation {σ : Type} (e : ProtocolError)
    (decrypt : Bytes → EStateM (Fault NoiseError) σ Bytes) (encrypted : Option Bytes) (object : σ) :
    Leaves inbox (readNegotiation C e decrypt encrypted object) := by
  cases encrypted with
  | none => exact .pure _
  | some encrypted =>
      refine (leaves_within _ _ _).bind fun r => ?_
      exact (leaves_applyFmpNegotiation C _).bind fun _ => .pure _

theorem leaves_completeXx (o : Opening) (hs : NoiseXxInitiator) (senderIdx : SessionIndex)
    (np : Bytes) : Leaves inbox (completeXx C o hs senderIdx np) := by
  refine (leaves_within _ _ _).bind fun r => ?_
  split
  · refine (leaves_readNegotiation C _ _ _ _).bind fun hs => ?_
    exact (blind_sendMsg3 apart_inboxPart C o hs senderIdx).leaves.bind fun _ => .pure _
  · exact .throw _

theorem leaves_complete (o : Opening) (senderIdx : SessionIndex) (np : Bytes) :
    Leaves inbox (complete C o senderIdx np) := by
  rw [complete]
  split
  · exact (blind_completeIk (c := inboxPart H) C _ _ _).leaves
  · exact leaves_completeXx C _ _ _ _

theorem leaves_acceptMsg3 (a : Answering) (np : Bytes) : Leaves inbox (acceptMsg3 C a np) := by
  refine (leaves_within _ _ _).bind fun r => (leaves_readNegotiation C _ _ _ _).bind fun _ => ?_
  split
  · exact .pure _
  · exact .throw _

theorem leaves_onFrame (phase : Phase) (frame : Bytes) : Leaves inbox (onFrame C phase frame) := by
  cases phase with
  | opening o =>
      rw [onFrame, onFrameOpening]
      split
      · exact .throw _
      · exact (leaves_complete C _ _ _).bind fun _ => .pure _
      · exact (blind_onMsg1 apart_inboxPart C _ _ _).leaves
      · exact .pure _
  | answering a =>
      rw [onFrame, onFrameAnswering]
      split
      · exact .throw _
      · exact (leaves_acceptMsg3 C _ _).bind fun _ => .pure _
      · exact .pure _

theorem leaves_onTimeout (phase : Phase) : Leaves inbox (onTimeout C phase) :=
  (blind_onTimeout apart_inboxPart C phase).leaves

theorem leaves_begin : Leaves inbox (begin C) :=
  (blind_begin apart_inboxPart C).leaves

variable {C}

variable {phase : Phase} {s t : Handshake H} {p : Progress}

/-- The loops of a handshake take the frames of the buffer one after the other. -/
theorem drain_takes (hraw : C.rawFraming = false) {fuel : ℕ} (hb : s.Tidy)
    (hfuel : s.pending.length < fuel) (h : (drain C fuel phase).run s = .ok p t) :
    ∃ frames, s.toRecvBuffer.Takes frames t.toRecvBuffer ∧
      t.received = frames.reverse ++ s.received ∧ ∀ phase', p = .waits phase' → t.Waiting := by
  induction fuel generalizing phase s with
  | zero => cases hfuel
  | succ fuel ih =>
      rw [drain] at h
      have hpos : ¬ s.rbuf.length < s.rpos := Nat.not_lt.mpr hb.rpos_le
      obtain ⟨b, hnext, hwaiting, htakes⟩ | ⟨frame, b, hnext, htidy, htakes, hlt⟩ :=
        RecvBuffer.next_takes C.build hb
      · have hrecv : (recvFrame C).run s = .ok none { s with toRecvBuffer := b } := by
          simp [recvFrame, hpos, hraw, hnext]
        rw [EStateM.run_bind_ok hrecv] at h
        obtain ⟨rfl, rfl⟩ := Result.ok.inj h
        exact ⟨[], htakes, rfl, fun _ _ => hwaiting⟩
      · have hrecv : (recvFrame C).run s =
            .ok (some frame) { s with toRecvBuffer := b, received := frame :: s.received } := by
          simp [recvFrame, hpos, hraw, hnext]
        rw [EStateM.run_bind_ok hrecv] at h
        obtain ⟨q, u, hframe, h⟩ := exists_of_run_bind h
        obtain ⟨hbuffer, hreceived⟩ := Prod.mk.inj ((leaves_onFrame C phase frame _).view_eq hframe)
        have hub : u.toRecvBuffer = b := hbuffer
        cases q with
        | returns outcome =>
            obtain ⟨rfl, rfl⟩ := Result.ok.inj h
            exact ⟨[frame], hub ▸ htakes, hreceived, by rintro _ ⟨⟩⟩
        | waits phase' =>
            obtain ⟨frames, htakes', hreceived', hwaits⟩ :=
              ih (hub ▸ htidy) (by rw [hub]; omega) h
            refine ⟨frame :: frames, (hub ▸ htakes).trans htakes', ?_, hwaits⟩
            rw [hreceived', hreceived]
            simp

def chunks (receptions : List Reception) : List Bytes :=
  Steady.chunks (receptions.map Reception.toInput)

theorem chunks_cons (r : Reception) (receptions : List Reception) :
    chunks (r :: receptions) = chunks [r] ++ chunks receptions := by
  simp only [chunks, Steady.chunks, List.map_cons, List.map_nil]
  rw [← List.singleton_append, List.filterMap_append]

theorem chunks_append (rs rs' : List Reception) : chunks (rs ++ rs') = chunks rs ++ chunks rs' := by
  simp only [chunks, Steady.chunks, List.map_append, List.filterMap_append]

/-- Between `s` and `t` the handshake was given the bytes `data`, and took the frames `frames` from
the stream. -/
structure Took (s : Handshake H) (data : Bytes) (frames : List Bytes) (t : Handshake H) : Prop where
  received_eq : t.received = frames.reverse ++ s.received
  decodes : ∀ more units rest, lengthPrefixed.Decodes (t.pending ++ more) units rest →
    ∃ units', lengthPrefixed.Decodes (s.pending ++ (data ++ more)) units' rest ∧
      units'.filter (· ≠ []) = frames ++ units.filter (· ≠ [])

theorem Took.of_inbox_eq (h : t.inbox = s.inbox) : Took s [] [] t := by
  obtain ⟨hbuffer, hreceived⟩ := Prod.mk.inj h
  refine ⟨hreceived, fun more units rest hunits => ⟨units, ?_, rfl⟩⟩
  rw [hbuffer] at hunits
  exact hunits

theorem Took.trans {u : Handshake H} {data data' : Bytes} {frames frames' : List Bytes}
    (h : Took s data frames t) (h' : Took t data' frames' u) :
    Took s (data ++ data') (frames ++ frames') u := by
  constructor
  · rw [h'.received_eq, h.received_eq, List.reverse_append, List.append_assoc]
  · intro more units rest hunits
    obtain ⟨units', hunits', hfilter'⟩ := h'.decodes more units rest hunits
    obtain ⟨units'', hunits'', hfilter''⟩ := h.decodes _ units' rest hunits'
    refine ⟨units'', by rw [List.append_assoc]; exact hunits'', ?_⟩
    rw [hfilter'', hfilter', List.append_assoc]

theorem receive_took (hraw : C.rawFraming = false) {r : Reception} (hs : s.Waiting)
    (hchunks : ∀ chunk ∈ chunks [r], chunk.length ≤ 547) (h : (receive C phase r).run s = .ok p t) :
    ∃ frames, Took s (chunks [r]).flatten frames t ∧ ∀ phase', p = .waits phase' → t.Waiting := by
  cases r with
  | closed => cases h
  | timeout =>
      obtain ⟨phase', u, htimeout, hpure⟩ := exists_of_run_bind h
      obtain ⟨-, rfl⟩ := Result.ok.inj hpure
      have hinbox := (leaves_onTimeout C phase s).view_eq htimeout
      have hbuffer : u.toRecvBuffer = s.toRecvBuffer := congrArg Prod.fst hinbox
      exact ⟨[], .of_inbox_eq hinbox, fun _ _ => hbuffer ▸ hs⟩
  | chunk data =>
      have hdata : data.length ≤ 547 := hchunks data List.mem_cons_self
      obtain ⟨htidy, hpending⟩ := RecvBuffer.Waiting.store hs hdata
      rw [receive, EStateM.run_get_bind, if_neg (by simp only [Steady.recvBufSize]; omega),
        hraw] at h
      dsimp only at h
      rw [EStateM.run_set_bind] at h
      obtain ⟨frames, htakes, hreceived, hwaits⟩ := drain_takes hraw
        (s := { s with toRecvBuffer := s.toRecvBuffer.store false data }) htidy
        (Nat.lt_succ_of_le (RecvBuffer.pending_length_le _)) h
      refine ⟨frames, ⟨hreceived, fun more units rest hunits => ?_⟩, hwaits⟩
      obtain ⟨units', hunits', hfilter⟩ := htakes more units rest hunits
      dsimp only at hunits'
      rw [hpending, List.append_assoc] at hunits'
      refine ⟨units', ?_, hfilter⟩
      simpa [chunks, Steady.chunks, Reception.toInput, Steady.Input.chunk?] using hunits'

/-- A handshake takes its frames from the front of the stream.  The rest of the bytes that it was
given is in the buffer when it returns. -/
theorem await_took (hraw : C.rawFraming = false) {receptions rest : List Reception} (hs : s.Waiting)
    (hchunks : ∀ chunk ∈ chunks receptions, chunk.length ≤ 547)
    (h : (await C receptions phase).run s = .ok (p, rest) t) :
    ∃ used frames, receptions = used ++ rest ∧ Took s (chunks used).flatten frames t := by
  induction receptions generalizing phase s with
  | nil =>
      obtain ⟨hp, rfl⟩ := Result.ok.inj h
      obtain ⟨-, rfl⟩ := Prod.mk.inj hp
      exact ⟨[], [], rfl, .of_inbox_eq rfl⟩
  | cons r receptions ih =>
      rw [chunks_cons] at hchunks
      rw [await] at h
      obtain ⟨q, u, hrecv, h⟩ := exists_of_run_bind h
      obtain ⟨frames, htook, hwaits⟩ := receive_took hraw hs
        (fun chunk hchunk => hchunks chunk (List.mem_append_left _ hchunk)) hrecv
      cases q with
      | returns outcome =>
          obtain ⟨hp, rfl⟩ := Result.ok.inj h
          obtain ⟨-, rfl⟩ := Prod.mk.inj hp
          exact ⟨[r], frames, rfl, htook⟩
      | waits phase' =>
          obtain ⟨used, frames', hused, htook'⟩ := ih (hwaits _ rfl)
            (fun chunk hchunk => hchunks chunk (List.mem_append_right _ hchunk)) h
          refine ⟨r :: used, frames ++ frames', by rw [hused, List.cons_append], ?_⟩
          rw [chunks_cons, List.flatten_append]
          exact htook.trans htook'

theorem run_took (hraw : C.rawFraming = false) {receptions rest : List Reception}
    (hs : s.toRecvBuffer = .empty) (hchunks : ∀ chunk ∈ chunks receptions, chunk.length ≤ 547)
    (h : (run C receptions).run s = .ok (p, rest) t) :
    ∃ used frames, receptions = used ++ rest ∧ Took s (chunks used).flatten frames t := by
  obtain ⟨phase, u, hbegin, h⟩ := exists_of_run_bind h
  have hinbox := (leaves_begin C s).view_eq hbegin
  have hbuffer : u.toRecvBuffer = s.toRecvBuffer := congrArg Prod.fst hinbox
  have hwaiting : u.Waiting := by
    rw [hbuffer, hs]
    exact RecvBuffer.waiting_empty
  obtain ⟨used, frames, hused, htook⟩ := await_took hraw hwaiting hchunks h
  exact ⟨used, frames, hused, (Took.of_inbox_eq hinbox).trans htook⟩

end Handshake

namespace Scenario

def fresh (peerSentFirst : Bool) : Handshake PUnit where
  rbuf := []
  rpos := 0
  handler := ⟨⟩
  peerSentFirst := peerSentFirst
  peerProfile := none
  fmpVersion := none
  peerWantsSr := false
  peerWantsRr := false
  calls := 0
  sent := []
  received := []

def lastOf (C : Config PUnit PUnit) (peerSentFirst : Bool) (receptions : List Reception) : Bytes :=
  ((Handshake.run C receptions).run (fresh peerSentFirst)).state.sent.headD []

def firstMsg2 : Bytes := lastOf bob true [.chunk (lastOf streaming false [])]

def following : Bytes :=
  buildEstablishedHeader .ik 0 0 0 16 ++ List.replicate 16 0

def apart : List Reception := [.chunk (encodeFrame firstMsg2), .chunk (encodeFrame following)]

def together : List Reception := [.chunk (encodeFrame firstMsg2 ++ encodeFrame following)]

end Scenario

variable {H M : Type} (C : Config H M)

/-- A handshake that returned: its outcome, what the transport still has to give, and the state in
which it left the node. -/
def returned : Result (Fault ProtocolError) (Handshake H) (Progress × List Reception) →
    Option (Outcome × List Reception × Handshake H)
  | .ok (.returns outcome, rest) t => some (outcome, rest, t)
  | _ => none

theorem eq_ok_of_returned
    {r : Result (Fault ProtocolError) (Handshake H) (Progress × List Reception)}
    {outcome : Outcome} {rest : List Reception} {t : Handshake H}
    (h : returned r = some (outcome, rest, t)) : r = .ok (.returns outcome, rest) t := by
  unfold returned at h
  split at h
  · cases h
    rfl
  · cases h

def seenBySteady (policy : PeerPolicy) (mmp : M) (receptions : List Reception) (s : Handshake H) :
    List Bytes :=
  match returned ((Handshake.run C receptions).run { s with toRecvBuffer := .empty }) with
  | some (outcome, rest, t) =>
      Steady.extracted (negotiated C t) (rest.map Reception.toInput)
        (enterSteady C policy mmp outcome t)
  | none => []

variable {C}

open Handshake in
/-- A session on a stream of frames.  If the handshake leaves no bytes in the buffer when it
returns, and no chunk overflows the buffer of the steady loop, the loop takes every frame that
follows the frames of the handshake; where the session ends it takes no frame behind the one at
which it ended. -/
theorem seenBySteady_eq_following (hraw : C.rawFraming = false) {s t : Handshake H}
    {receptions rest : List Reception} {outcome : Outcome} (policy : PeerPolicy) (mmp : M)
    {frames : List Bytes} (hframes : ∀ frame ∈ frames, 1 ≤ frame.length ∧ frame.length ≤ 1500)
    (hchunks : ∀ chunk ∈ Handshake.chunks receptions, chunk.length ≤ 547)
    (hstream : (Handshake.chunks receptions).flatten = encodeStream frames)
    (hrun : (Handshake.run C receptions).run { s with toRecvBuffer := .empty } =
      .ok (.returns outcome, rest) t)
    (hempty : t.pending = [])
    (hfit : Steady.Unflushed (negotiated C t) (rest.map Reception.toInput)
      (enterSteady C policy mmp outcome t)) :
    ∃ first after, frames = first ++ after ∧ t.received = first.reverse ++ s.received ∧
      seenBySteady C policy mmp receptions s <+: after ∧
      (((Steady.run (negotiated C t) (rest.map Reception.toInput)).run
          (enterSteady C policy mmp outcome t)).isOk = true →
        seenBySteady C policy mmp receptions s = after) := by
  obtain ⟨used, first, rfl, htook⟩ := run_took hraw rfl hchunks hrun
  rw [chunks_append] at hchunks hstream
  rw [List.flatten_append] at hstream
  have hsmall : ∀ chunk ∈ Steady.chunks (rest.map Reception.toInput),
      chunk.length ≤ Steady.recvBufSize :=
    fun chunk hchunk => (hchunks chunk (List.mem_append_right _ hchunk)).trans (by decide)
  obtain ⟨units, left, hfeeds, hextracted⟩ :=
    Steady.extracted_feeds (C := negotiated C t) hraw _ (Nat.zero_le _) hsmall hfit
  have hdecodes := hfeeds.decodes StreamDecoder.next_nil
  -- the frames of the handshake come first in the stream
  have hall : lengthPrefixed.Decodes (t.pending ++ (Handshake.chunks rest).flatten) units left := by
    rw [hempty]
    exact hdecodes
  obtain ⟨units', hunits', hfilter⟩ := htook.decodes _ units left hall
  have hstream' : lengthPrefixed.Decodes (encodeStream frames) units' left := by
    rw [← hstream]
    exact hunits'
  obtain ⟨rfl, -⟩ := hstream'.unique (decodes_encodeStream hframes)
  rw [filter_ne_nil_of_carried hframes] at hfilter
  rw [seenBySteady, hrun]
  exact ⟨first, units.filter (· ≠ []), hfilter, htook.received_eq, hextracted⟩

open Scenario in
theorem seenBySteady_eq_following_apart :
    seenBySteady streaming policy ⟨⟩ apart (fresh false) = [following] := by
  have h : (∀ frame ∈ [firstMsg2, following], 1 ≤ frame.length ∧ frame.length ≤ 1500) ∧
      (∀ chunk ∈ Handshake.chunks apart, chunk.length ≤ 547) ∧
      (Handshake.chunks apart).flatten = encodeStream [firstMsg2, following] ∧
      (returned ((Handshake.run streaming apart).run (fresh false))).isSome ∧
      ∀ r ∈ returned ((Handshake.run streaming apart).run (fresh false)),
        r.2.2.pending = [] ∧ r.2.2.received = [firstMsg2] ∧
        Steady.Unflushed (negotiated streaming r.2.2) (r.2.1.map Reception.toInput)
          (enterSteady streaming policy ⟨⟩ r.1 r.2.2) ∧
        ((Steady.run (negotiated streaming r.2.2) (r.2.1.map Reception.toInput)).run
          (enterSteady streaming policy ⟨⟩ r.1 r.2.2)).isOk = true := by
    decide +kernel
  obtain ⟨hframes, hchunks, hstream, hsome, hall⟩ := h
  obtain ⟨⟨outcome, rest, t⟩, hreturned⟩ := Option.isSome_iff_exists.mp hsome
  obtain ⟨hempty, hreceived, hfit, hok⟩ := hall _ hreturned
  have hrun := eq_ok_of_returned hreturned
  obtain ⟨first, after, hsplit, hfirst, -, hall⟩ := seenBySteady_eq_following
    (C := streaming) (s := fresh false) rfl policy ⟨⟩ hframes hchunks hstream hrun hempty hfit
  have hone : [firstMsg2] = first.reverse := by
    rw [← hreceived, hfirst]
    exact List.append_nil _
  rw [hall hok]
  obtain rfl : first = [firstMsg2] := by rw [← List.reverse_reverse first, ← hone]; rfl
  exact (List.cons.inj hsplit).2.symm

open Scenario in
/-- The same two frames in one chunk: the handshake returns on the first, and the loop does not see
the second. -/
theorem seenBySteady_together :
    (∀ chunk ∈ Handshake.chunks together, chunk.length ≤ 547) ∧
      (Handshake.chunks together).flatten = encodeStream [firstMsg2, following] ∧
      (∃ r ∈ returned ((Handshake.run streaming together).run (fresh false)),
        r.2.2.received = [firstMsg2]) ∧
      seenBySteady streaming policy ⟨⟩ together (fresh false) = [] := by
  decide +kernel

end Node
end Microfips

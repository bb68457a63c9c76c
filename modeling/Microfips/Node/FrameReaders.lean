import Microfips.Node.Handover

/-!
# The readers of the handshake phase

`Node::recv_frame_length_prefixed` and `FrameReader::recv_frame` of `transport.rs` read frames from
a stream of chunks through a buffer of 2048 bytes.  Both move what they have not read to the front
before they wait.  What is waiting then is less than one frame with its length, so a chunk of at
most 547 bytes fits behind it, and calling the reader again and again gives the frames of the
stream.
-/

namespace Microfips
namespace Node

open Wire

namespace RecvBuffer

variable {b b' : RecvBuffer} {outLen : ℕ}

/-! ### The two readers between two waits -/

/-- The frame that `recv_frame_length_prefixed` writes to a buffer of `outLen` bytes without
waiting. -/
def nextInto (outLen : ℕ) : ℕ → RecvBuffer → Option Bytes × RecvBuffer
  | 0, b => (none, b)
  | fuel + 1, b =>
      match extractLengthPrefixedFrame b.pending with
      | none => (none, b)
      | some (frame, n) =>
          if frame = [] then nextInto outLen fuel (b.advance n)
          else (some (frame.take outLen), b.advance n)

/-- The frame that `FrameReader::recv_frame` writes to a buffer of `outLen` bytes without waiting.
A bad length is skipped without resetting the buffer. -/
def nextRead (outLen : ℕ) : ℕ → RecvBuffer → Option Bytes × RecvBuffer
  | 0, b => (none, b)
  | fuel + 1, b =>
      if b.rpos < b.rbuf.length then
        if b.rbuf.length - b.rpos < 2 then
          (none, b)
        else
          let ml := Bytes.toNat (Bytes.slice b.rpos (b.rpos + 2) b.rbuf)
          if ml = 0 ∨ maxFrame < ml then
            nextRead outLen fuel { b with rpos := min (b.rpos + 2) b.rbuf.length }
          else if b.rbuf.length - b.rpos - 2 < ml then
            (none, b)
          else
            (some (Bytes.slice (b.rpos + 2) (b.rpos + 2 + min ml outLen) b.rbuf),
              b.advance (2 + ml))
      else
        (none, b)

/-- A reader that has no frame to return compacts its buffer and waits. -/
def orWait (r : Option Bytes × RecvBuffer) : Option Bytes × RecvBuffer :=
  match r.1 with
  | none => (none, r.2.compact)
  | some frame => (some frame, r.2)

def scanNode (outLen : ℕ) (b : RecvBuffer) : Option Bytes × RecvBuffer :=
  orWait (b.nextInto outLen b.rbuf.length)

def scanReader (outLen : ℕ) (b : RecvBuffer) : Option Bytes × RecvBuffer :=
  orWait (b.nextRead outLen b.rbuf.length)

theorem nextLengthPrefixed_eq_nextInto (fuel : ℕ) (b : RecvBuffer) :
    b.nextLengthPrefixed fuel = b.nextInto maxFrameSize fuel := by
  induction fuel generalizing b with
  | zero => rfl
  | succ fuel ih =>
      rw [nextLengthPrefixed, nextInto]
      cases extractLengthPrefixedFrame b.pending with
      | none => rfl
      | some r =>
          dsimp only
          rw [ih]

theorem next_eq_scanNode (build : Build) (b : RecvBuffer) :
    b.next build false = b.scanNode maxFrameSize := by
  rw [next, if_neg (by decide), nextLengthPrefixed_eq_nextInto]
  rfl

/-! ### What they have in common -/

/-- A reader in terms of the framing: it waits with what it has not read where no frame is complete,
and otherwise returns the frame. -/
structure Scans (outLen : ℕ) (scan : RecvBuffer → Option Bytes × RecvBuffer) : Prop where
  wait : ∀ {b : RecvBuffer}, b.Tidy → lengthPrefixed.next b.pending = none →
    scan b = (none, { rbuf := b.pending, rpos := 0 })
  take : ∀ {b : RecvBuffer} {frame : Bytes} {n : ℕ}, b.Tidy →
    lengthPrefixed.next b.pending = some (frame, n) → frame ≠ [] →
    scan b = (some (frame.take outLen), b.advance n)

theorem scans_scanNode (outLen : ℕ) : Scans outLen (scanNode outLen) where
  wait {b} hb hnext := by
    have hnone : b.nextInto outLen b.rbuf.length = (none, b) := by
      rw [lengthPrefixed_next] at hnext
      cases b.rbuf.length with
      | zero => rfl
      | succ fuel => rw [nextInto, hnext]
    rw [scanNode, hnone, ← hb.compact_eq]
    rfl
  take {b frame n} hb hnext hframe := by
    have hsome : b.nextInto outLen b.rbuf.length = (some (frame.take outLen), b.advance n) := by
      have hpos := lengthPrefixed.pos hnext
      have hle := (lengthPrefixed.le_length hnext).trans b.pending_length_le
      rw [lengthPrefixed_next] at hnext
      cases hfuel : b.rbuf.length with
      | zero => omega
      | succ fuel =>
          rw [nextInto, hnext]
          exact if_neg hframe
    rw [scanNode, hsome]
    rfl

theorem length_pending (b : RecvBuffer) : b.pending.length = b.rbuf.length - b.rpos :=
  List.length_drop

theorem slice_rpos (b : RecvBuffer) :
    Bytes.slice b.rpos (b.rpos + 2) b.rbuf = b.pending.take 2 := by
  rw [Bytes.slice, Nat.add_sub_cancel_left]
  rfl

theorem nextRead_of_none {fuel : ℕ} (hnext : extractLengthPrefixedFrame b.pending = none) :
    b.nextRead outLen (fuel + 1) = (none, b) := by
  rw [extractLengthPrefixedFrame, b.length_pending] at hnext
  rw [nextRead, b.slice_rpos]
  by_cases htwo : b.rbuf.length - b.rpos < 2
  · rw [if_pos htwo, ite_self]
  · rw [if_neg htwo] at hnext ⊢
    dsimp only at hnext ⊢
    split at hnext
    · cases hnext
    rename_i hml
    split at hnext
    · rename_i hshort
      rw [if_neg hml, if_pos hshort, ite_self]
    · cases hnext

theorem nextRead_of_some {fuel n : ℕ} {frame : Bytes}
    (hnext : extractLengthPrefixedFrame b.pending = some (frame, n)) (hframe : frame ≠ []) :
    b.nextRead outLen (fuel + 1) = (some (frame.take outLen), b.advance n) := by
  obtain ⟨htwo, ⟨hnil, -⟩ | ⟨hn, hle, hslice, hpos, hmax⟩⟩ := extractLengthPrefixedFrame_cases hnext
  · exact absurd hnil hframe
  rw [b.length_pending] at htwo hle
  have hcopy (ml : ℕ) : Bytes.slice (b.rpos + 2) (b.rpos + 2 + min ml outLen) b.rbuf =
      (Bytes.slice 2 (2 + ml) b.pending).take outLen := by
    rw [Bytes.slice, Bytes.slice, pending, List.drop_drop, List.take_take, Nat.add_sub_cancel_left,
      Nat.add_sub_cancel_left, Nat.min_comm]
  rw [nextRead, b.slice_rpos, if_pos (by omega), if_neg (by omega)]
  dsimp only
  rw [if_neg (by omega), if_neg (by omega), hcopy, hslice, hn]

theorem scans_scanReader (outLen : ℕ) : Scans outLen (scanReader outLen) where
  wait {b} hb hnext := by
    have hnone : b.nextRead outLen b.rbuf.length = (none, b) := by
      cases b.rbuf.length with
      | zero => rfl
      | succ fuel => exact nextRead_of_none hnext
    rw [scanReader, hnone, ← hb.compact_eq]
    rfl
  take {b frame n} hb hnext hframe := by
    have hsome : b.nextRead outLen b.rbuf.length = (some (frame.take outLen), b.advance n) := by
      have hpos := lengthPrefixed.pos hnext
      have hle := (lengthPrefixed.le_length hnext).trans b.pending_length_le
      cases hfuel : b.rbuf.length with
      | zero => omega
      | succ fuel => exact nextRead_of_some hnext hframe
    rw [scanReader, hsome]
    rfl

end RecvBuffer

/-! ### Calls of a reader -/

/-- A reader on a transport: its buffer, the chunks that are still to come, and how often a chunk
that did not fit has flushed the buffer. -/
structure Inflow where
  buffer : RecvBuffer
  chunks : List Bytes
  flushes : ℕ

/-- One call of the reader, without timeouts: the frame that it returns, or nothing where it waits
for a chunk that does not come. -/
def call (scan : RecvBuffer → Option Bytes × RecvBuffer) :
    List Bytes → RecvBuffer → ℕ → Option Bytes × Inflow
  | [], b, flushes =>
      let r := scan b
      (r.1, { buffer := r.2, chunks := [], flushes })
  | chunk :: chunks, b, flushes =>
      match scan b with
      | (some frame, b') => (some frame, { buffer := b', chunks := chunk :: chunks, flushes })
      | (none, b') =>
          call scan chunks (b'.store false chunk)
            (if maxFrameSize < b'.rbuf.length + chunk.length then flushes + 1 else flushes)

def calls (scan : RecvBuffer → Option Bytes × RecvBuffer) : ℕ → Inflow → List Bytes × Inflow
  | 0, s => ([], s)
  | n + 1, s =>
      match call scan s.chunks s.buffer s.flushes with
      | (none, t) => ([], t)
      | (some frame, t) =>
          let r := calls scan n t
          (frame :: r.1, r.2)

/-- What the reader holds and what is still to come are the frames, in chunks that fit. -/
structure Inbound (frames : List Bytes) (b : RecvBuffer) (chunks : List Bytes) : Prop where
  tidy : b.Tidy
  stream_eq : b.pending ++ chunks.flatten = encodeStream frames
  chunk_le : ∀ chunk ∈ chunks, chunk.length ≤ 547

namespace Inbound

variable {scan : RecvBuffer → Option Bytes × RecvBuffer} {outLen : ℕ} {frames : List Bytes}
  {b : RecvBuffer} {chunks : List Bytes}

theorem store {chunk : Bytes} (h : Inbound frames b (chunk :: chunks))
    (hnext : lengthPrefixed.next b.pending = none) :
    Inbound frames (RecvBuffer.store false chunk { rbuf := b.pending, rpos := 0 }) chunks ∧
      ¬maxFrameSize < b.pending.length + chunk.length := by
  have hwaiting : RecvBuffer.Waiting { rbuf := b.pending, rpos := 0 } := ⟨rfl, hnext⟩
  have hchunk : chunk.length ≤ 547 := h.chunk_le chunk List.mem_cons_self
  have hheld : b.pending.length ≤ 1501 := length_le_of_next_eq_none hnext
  obtain ⟨htidy, hpending⟩ := hwaiting.store hchunk
  refine ⟨⟨htidy, ?_, fun c hc => h.chunk_le c (List.mem_cons_of_mem chunk hc)⟩, ?_⟩
  · rw [hpending, List.append_assoc, ← List.flatten_cons, ← h.stream_eq]
    rfl
  · rw [maxFrameSize]
    omega

variable {frame : Bytes}

/-- The frame that is complete in the buffer is the first frame of the stream. -/
theorem next_eq (h : Inbound (frame :: frames) b chunks) (hframe : Carried frame) {r : Bytes × ℕ}
    (hnext : lengthPrefixed.next b.pending = some r) : r = (frame, 2 + frame.length) := by
  have hwhole := lengthPrefixed.next_append chunks.flatten hnext
  rw [h.stream_eq, encodeStream, List.flatMap_cons, next_encodeFrame_append hframe] at hwhole
  exact (Option.some.inj hwhole).symm

theorem advance (h : Inbound (frame :: frames) b chunks)
    (hnext : lengthPrefixed.next b.pending = some (frame, 2 + frame.length)) :
    Inbound frames (b.advance (2 + frame.length)) chunks := by
  refine ⟨RecvBuffer.tidy_advance _ _, ?_, h.chunk_le⟩
  have hle := lengthPrefixed.le_length hnext
  rw [RecvBuffer.advance_pending, ← List.drop_append_of_le_length hle, h.stream_eq, encodeStream,
    List.flatMap_cons]
  exact List.drop_left' (by simp [encodeFrame])

theorem call_cons (hscan : RecvBuffer.Scans outLen scan) (hout : maxFrame ≤ outLen)
    (hframe : Carried frame) (h : Inbound (frame :: frames) b chunks) (flushes : ℕ) :
    ∃ b' chunks', call scan chunks b flushes =
      (some frame, { buffer := b', chunks := chunks', flushes }) ∧ Inbound frames b' chunks' := by
  have hne : frame ≠ [] := by
    rintro rfl
    cases hframe.1
  have htake : frame.take outLen = frame := List.take_of_length_le (hframe.2.trans hout)
  induction chunks generalizing b with
  | nil =>
      -- Nothing is to come, so the frame is complete.
      have hnext : lengthPrefixed.next b.pending = some (frame, 2 + frame.length) := by
        have hstream := h.stream_eq
        rw [List.flatten_nil, List.append_nil] at hstream
        rw [hstream]
        exact next_encodeFrame_append hframe _
      refine ⟨_, [], ?_, h.advance hnext⟩
      rw [call, hscan.take h.tidy hnext hne, htake]
  | cons chunk chunks ih =>
      rw [call]
      cases hnext : lengthPrefixed.next b.pending with
      | none =>
          obtain ⟨hstore, hfits⟩ := h.store hnext
          rw [hscan.wait h.tidy hnext]
          dsimp only
          rw [if_neg hfits]
          exact ih hstore
      | some r =>
          cases h.next_eq hframe hnext
          refine ⟨_, chunk :: chunks, ?_, h.advance hnext⟩
          rw [hscan.take h.tidy hnext hne, htake]

theorem call_nil (hscan : RecvBuffer.Scans outLen scan) (h : Inbound [] b chunks) (flushes : ℕ) :
    ∃ t, call scan chunks b flushes = (none, t) ∧ t.flushes = flushes := by
  have hnext (b : RecvBuffer) (chunks : List Bytes) (h : Inbound [] b chunks) :
      lengthPrefixed.next b.pending = none := by
    have hnil : b.pending = [] := (List.append_eq_nil_iff.mp h.stream_eq).1
    rw [hnil]
    exact StreamDecoder.next_nil
  induction chunks generalizing b with
  | nil =>
      refine ⟨{ buffer := { rbuf := b.pending, rpos := 0 }, chunks := [], flushes }, ?_, rfl⟩
      rw [call, hscan.wait h.tidy (hnext _ _ h)]
  | cons chunk chunks ih =>
      obtain ⟨hstore, hfits⟩ := h.store (hnext _ _ h)
      rw [call, hscan.wait h.tidy (hnext _ _ h)]
      dsimp only
      rw [if_neg hfits]
      exact ih hstore

/-- Calling the reader again and again gives the frames, and no chunk flushes the buffer. -/
theorem calls_eq (hscan : RecvBuffer.Scans outLen scan) (hout : maxFrame ≤ outLen)
    (hframes : ∀ frame ∈ frames, Carried frame) (h : Inbound frames b chunks) (n flushes : ℕ) :
    ∃ t, calls scan n { buffer := b, chunks, flushes } = (frames.take n, t) ∧
      t.flushes = flushes := by
  induction n generalizing b chunks frames with
  | zero => exact ⟨_, rfl, rfl⟩
  | succ n ih =>
      rw [calls]
      cases frames with
      | nil =>
          obtain ⟨t, ht, hflushes⟩ := h.call_nil hscan flushes
          rw [ht]
          exact ⟨t, rfl, hflushes⟩
      | cons frame frames =>
          obtain ⟨b', chunks', hcall, hrest⟩ :=
            h.call_cons hscan hout (hframes frame List.mem_cons_self) flushes
          obtain ⟨t, ht, hflushes⟩ := ih (fun f hf => hframes f (List.mem_cons_of_mem _ hf)) hrest
          rw [hcall]
          dsimp only
          rw [ht]
          exact ⟨t, rfl, hflushes⟩

end Inbound

def Inflow.start (chunks : List Bytes) : Inflow where
  buffer := .empty
  chunks := chunks
  flushes := 0

/-- However the stream of the frames is cut into chunks of the size that the reader asks for, calls
of the reader return the frames in order, and the buffer is never flushed. -/
theorem readers_exact (frames chunks : List Bytes) (hframes : ∀ frame ∈ frames, Carried frame)
    (hstream : chunks.flatten = encodeStream frames) {outLen : ℕ} (hout : maxFrame ≤ outLen)
    (n : ℕ) :
    ((∀ chunk ∈ chunks, chunk.length ≤ 547) →
      ∃ t, calls (RecvBuffer.scanNode outLen) n (.start chunks) = (frames.take n, t) ∧
        t.flushes = 0) ∧
    ((∀ chunk ∈ chunks, chunk.length ≤ 256) →
      ∃ t, calls (RecvBuffer.scanReader outLen) n (.start chunks) = (frames.take n, t) ∧
        t.flushes = 0) := by
  have hcarries (hchunks : ∀ chunk ∈ chunks, chunk.length ≤ 547) :
      Inbound frames .empty chunks := ⟨RecvBuffer.tidy_empty, hstream, hchunks⟩
  constructor
  · intro hchunks
    exact (hcarries hchunks).calls_eq (RecvBuffer.scans_scanNode outLen) hout hframes n 0
  · intro hchunks
    apply (hcarries _).calls_eq (RecvBuffer.scans_scanReader outLen) hout hframes n 0
    exact fun chunk hchunk => (hchunks chunk hchunk).trans (by decide)

/-- Two frames in three chunks, the second chunk cut in the length of the second frame. -/
theorem readers_exact_three :
    ∃ t, calls (RecvBuffer.scanReader 1500) 5 (.start [[2, 0, 7], [8, 3], [0, 1, 2, 3]]) =
      ([[7, 8], [1, 2, 3]], t) ∧ t.flushes = 0 :=
  (readers_exact [[7, 8], [1, 2, 3]] _ (by decide) (by decide) (by decide) 5).2 (by decide)

end Node
end Microfips

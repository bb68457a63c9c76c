import Microfips.Wire.Stream
import Microfips.Node.Footprint
import Microfips.Node.Ledger

/-!
# Frames from a byte stream

On a length-prefixed transport the loop of `steady` collects chunks in `rbuf` and takes the frames
out of it.  As long as no chunk overflows the buffer, the loop is a decoder of the stream: it sees
the frames that were sent, however the stream is cut.  But it never moves the bytes it has not
read yet to the front: `rlen` falls back to zero only when a chunk ends with a frame, so a stream
that is cut elsewhere fills the buffer with bytes that were read long ago, and the chunk that does
not fit any more is dropped together with what was waiting.
-/

namespace Microfips
namespace Node

open Noise Wire EStateM

variable {H M : Type} (C : Config H M)

namespace Steady

def pending (s : Steady H M) : Bytes :=
  s.rbuf.drop s.rpos

def Input.chunk? : Input → Option Bytes
  | recv chunk => some chunk
  | recvError => none
  | timer => none

def chunks (inputs : List Input) : List Bytes :=
  inputs.filterMap Input.chunk?

def stored (s : Steady H M) (chunk : Bytes) : Option (Steady H M) :=
  if recvBufSize < chunk.length then
    none
  else if C.rawFraming then
    some { s with rbuf := chunk, rpos := 0 }
  else if maxFrameSize < s.rbuf.length + chunk.length then
    none
  else
    some { s with rbuf := s.rbuf ++ chunk }

def reached : List Bytes → Steady H M → List Bytes
  | [], _ => []
  | frame :: frames, s =>
      match (handleFrame C frame).run s with
      | .ok _ t => frame :: reached frames t
      | .error _ _ => [frame]

def extractedIn (s : Steady H M) : Input → List Bytes
  | .recv chunk =>
      match (checkLink C).run s with
      | .ok _ t =>
          match stored C t chunk with
          | some u =>
              reached C (splitFrames C.build C.rawFraming u.rbuf u.rbuf.length u.rpos).1 u
          | none => []
      | .error _ _ => []
  | .recvError => []
  | .timer => []

def extracted : List Input → Steady H M → List Bytes
  | [], _ => []
  | input :: inputs, s =>
      extractedIn C s input ++
        match (iteration C input).run s with
        | .ok _ t => extracted inputs t
        | .error _ _ => []

def Fits (s : Steady H M) (input : Input) : Prop :=
  ∀ chunk ∈ input.chunk?, s.rbuf.length + chunk.length ≤ maxFrameSize

instance (s : Steady H M) (input : Input) : Decidable (Fits s input) :=
  inferInstanceAs (Decidable (∀ chunk ∈ input.chunk?, _))

def Unflushed : List Input → Steady H M → Prop
  | [], _ => True
  | input :: inputs, s =>
      Fits s input ∧
        match (iteration C input).run s with
        | .ok _ t => Unflushed inputs t
        | .error _ _ => True

instance Unflushed.decidable : (inputs : List Input) → (s : Steady H M) →
    Decidable (Unflushed C inputs s)
  | [], _ => isTrue trivial
  | input :: inputs, s =>
      match hrun : (iteration C input).run s with
      | .ok _ t =>
          have := Unflushed.decidable inputs t
          decidable_of_iff (Fits s input ∧ Unflushed C inputs t) (by rw [Unflushed, hrun])
      | .error _ _ => decidable_of_iff (Fits s input) (by rw [Unflushed, hrun, and_true])

variable {C}

theorem reached_isPrefix (frames : List Bytes) (s : Steady H M) :
    reached C frames s <+: frames := by
  induction frames generalizing s with
  | nil => exact List.prefix_refl _
  | cons frame frames ih =>
      rw [reached]
      split
      · exact (List.prefix_cons_inj frame).mpr (ih _)
      · exact ⟨frames, rfl⟩

variable {s t : Steady H M}

theorem reached_eq_of_run {frames : List Bytes} (h : (handleFrames C frames).run s = .ok ⟨⟩ t) :
    reached C frames s = frames := by
  induction frames generalizing s with
  | nil => rfl
  | cons frame frames ih =>
      rw [handleFrames] at h
      rw [reached]
      cases hrun : (handleFrame C frame).run s with
      | ok a u =>
          rw [EStateM.run_bind_ok hrun] at h
          simp only [ih h]
      | error e u =>
          rw [EStateM.run_bind_error hrun] at h
          cases h

/-- The frame loop on a buffer, when it returns: it came to all frames of the buffer, and what no
frame was made of is still there. -/
theorem onBuffer_run {tick : Option ℕ} {frames : List Bytes} {stop : ℕ}
    (hsplit : splitFrames C.build C.rawFraming s.rbuf s.rbuf.length s.rpos = (frames, stop))
    (h : (onBuffer C tick).run s = .ok ⟨⟩ t) :
    reached C frames s = frames ∧ t.pending = s.rbuf.drop stop ∧ t.rpos ≤ t.rbuf.length := by
  have hbuffer : ∀ {u : Steady H M}, t.buffer = u.buffer →
      t.pending = u.pending ∧ (u.rpos ≤ u.rbuf.length → t.rpos ≤ t.rbuf.length) := by
    intro u hu
    obtain ⟨hrbuf, hrpos⟩ := Prod.mk.inj hu
    rw [pending, pending, hrbuf, hrpos]
    exact ⟨rfl, id⟩
  rw [onBuffer, EStateM.run_get_bind] at h
  simp only [hsplit] at h
  cases hframes : (handleFrames C frames).run s with
  | error e u =>
      rw [EStateM.run_bind_error hframes] at h
      cases h
  | ok a u =>
      rw [EStateM.run_bind_ok hframes] at h
      obtain ⟨hrbuf, hrpos⟩ := Prod.mk.inj
        (((unobtrusive_handleFrames C frames).leaves_buffer s).view_eq hframes)
      have hafter := ((leaves_buffer_afterFrames C tick) _).view_eq h
      obtain ⟨hpending, hle⟩ := hbuffer hafter
      refine ⟨reached_eq_of_run hframes, ?_, ?_⟩
      · rw [hpending]
        dsimp only
        split
        · rename_i hdone
          rw [hrbuf] at hdone
          rw [pending, List.drop_eq_nil_of_le hdone]
          rfl
        · rw [pending, hrbuf]
      · apply hle
        dsimp only
        split
        · exact Nat.le_refl 0
        · rename_i hleft
          exact Nat.le_of_not_le hleft

theorem checkLink_buffer (h : (checkLink C).run s = .ok ⟨⟩ t) : t.rbuf = s.rbuf ∧ t.rpos = s.rpos :=
  Prod.mk.inj (((unobtrusive_checkLink C).leaves_buffer s).view_eq h)

/-- One chunk that fits: the pass takes the frames that are complete now, and keeps the rest. -/
theorem recv_decodes (hraw : C.rawFraming = false) (hpos : s.rpos ≤ s.rbuf.length) {chunk : Bytes}
    (hchunk : chunk.length ≤ recvBufSize) (hfit : s.rbuf.length + chunk.length ≤ maxFrameSize) :
    ∃ units rest, lengthPrefixed.Decodes (s.pending ++ chunk) units rest ∧
      extractedIn C s (.recv chunk) <+: units.filter (· ≠ []) ∧
      ∀ t, (iteration C (.recv chunk)).run s = .ok ⟨⟩ t →
        extractedIn C s (.recv chunk) = units.filter (· ≠ []) ∧ t.pending = rest ∧
          t.rpos ≤ t.rbuf.length := by
  have hle : s.rpos ≤ (s.rbuf ++ chunk).length := by
    simp only [List.length_append]
    omega
  obtain ⟨units, hunits, hframes, -⟩ := splitFrames_decodes C.build (s.rbuf ++ chunk) hle
    (Nat.le_add_left (s.rbuf ++ chunk).length s.rpos)
  rw [List.drop_append_of_le_length hpos] at hunits
  refine ⟨units, _, hunits, ?_⟩
  rw [extractedIn]
  cases hlink : (checkLink C).run s with
  | error e u =>
      refine ⟨List.nil_prefix, fun t ht => ?_⟩
      rw [iteration, EStateM.run_bind_error hlink] at ht
      cases ht
  | ok a u =>
      obtain ⟨hrbuf, hrpos⟩ := checkLink_buffer hlink
      have hstored : stored C u chunk = some { u with rbuf := s.rbuf ++ chunk } := by
        rw [stored, if_neg (by omega), hraw, if_neg (by decide), hrbuf, if_neg (by omega)]
      rw [← hrpos] at hframes ⊢
      simp only [hstored, hraw, hframes]
      refine ⟨reached_isPrefix _ _, fun t ht => ?_⟩
      rw [iteration, EStateM.run_bind_ok hlink,
        EStateM.run_get_bind] at ht
      dsimp only at ht
      rw [onRecv, EStateM.run_get_bind,
        if_neg (by omega), hraw, if_neg (by decide), hrbuf, if_neg (by omega),
        EStateM.run_set_bind] at ht
      obtain ⟨hreached, hpending, hle⟩ := onBuffer_run (s := { u with rbuf := s.rbuf ++ chunk })
        (by rw [hraw]) ht
      rw [hframes] at hreached
      exact ⟨hreached, hpending, hle⟩

theorem iteration_buffer {input : Input} (hinput : input.chunk? = none)
    (h : (iteration C input).run s = .ok ⟨⟩ t) : t.buffer = s.buffer := by
  cases input with
  | recv chunk => cases hinput
  | recvError =>
      refine LeavesAt.view_eq (Leaves.bind (unobtrusive_checkLink C).leaves_buffer ?_ s) h
      exact fun _ => .get_bind fun u =>
        (unobtrusive_sendDisconnect C _).leaves_buffer.bind (fun _ => .throw _) u
  | timer =>
      refine LeavesAt.view_eq (Leaves.bind (unobtrusive_checkLink C).leaves_buffer ?_ s) h
      exact fun _ => .get_bind fun u => leaves_buffer_onTimer C _ u

theorem extractedIn_of_chunk?_eq_none {input : Input} (hinput : input.chunk? = none) :
    extractedIn C s input = [] := by
  cases input with
  | recv chunk => cases hinput
  | recvError => rfl
  | timer => rfl

/-- A run of the loop without an overflow decodes the chunks one after the other. -/
theorem extracted_feeds (hraw : C.rawFraming = false) (inputs : List Input)
    (hpos : s.rpos ≤ s.rbuf.length) (hchunks : ∀ chunk ∈ chunks inputs, chunk.length ≤ recvBufSize)
    (hfit : Unflushed C inputs s) :
    ∃ units rest, lengthPrefixed.Feeds s.pending (chunks inputs) units rest ∧
      extracted C inputs s <+: units.filter (· ≠ []) ∧
      (((run C inputs).run s).isOk = true →
        extracted C inputs s = units.filter (· ≠ [])) := by
  induction inputs generalizing s with
  | nil => exact ⟨[], s.pending, .nil _, List.prefix_refl _, fun _ => rfl⟩
  | cons input inputs ih =>
      rw [Unflushed] at hfit
      rw [extracted]
      cases hinput : input.chunk? with
      | none =>
          -- no chunk: the buffer is as it was
          have hcons : chunks (input :: inputs) = chunks inputs := by simp [chunks, hinput]
          rw [hcons] at hchunks ⊢
          rw [extractedIn_of_chunk?_eq_none hinput, List.nil_append]
          cases hrun : (iteration C input).run s with
          | error e t =>
              obtain ⟨units, rest, hfeeds⟩ := lengthPrefixed.exists_feeds s.pending (chunks inputs)
              refine ⟨units, rest, hfeeds, List.nil_prefix, fun hok => ?_⟩
              rw [run, EStateM.run_bind_error hrun] at hok
              cases hok
          | ok a t =>
              obtain ⟨hrbuf, hrpos⟩ := Prod.mk.inj (iteration_buffer hinput hrun)
              rw [hrun] at hfit
              have hpending : t.pending = s.pending := by rw [pending, pending, hrbuf, hrpos]
              rw [run, EStateM.run_bind_ok hrun, ← hpending]
              exact ih (by rw [hrbuf, hrpos]; exact hpos) hchunks hfit.2
      | some chunk =>
          obtain rfl : input = .recv chunk := by
            cases input with
            | recv c => rw [Option.some.inj hinput]
            | recvError => cases hinput
            | timer => cases hinput
          have hcons : chunks (.recv chunk :: inputs) = chunk :: chunks inputs := rfl
          rw [hcons] at hchunks ⊢
          obtain ⟨units, held, hunits, hprefix, hok⟩ := recv_decodes hraw hpos
            (hchunks chunk List.mem_cons_self) (hfit.1 chunk rfl)
          cases hrun : (iteration C (.recv chunk)).run s with
          | error e t =>
              obtain ⟨units', rest, hfeeds⟩ := lengthPrefixed.exists_feeds held (chunks inputs)
              refine ⟨units ++ units', rest, .cons hunits hfeeds, ?_, fun hok => ?_⟩
              · rw [List.append_nil, List.filter_append]
                exact hprefix.trans (List.prefix_append _ _)
              · rw [run, EStateM.run_bind_error hrun] at hok
                cases hok
          | ok a t =>
              obtain ⟨hall, hpending, hle⟩ := hok t hrun
              rw [hrun] at hfit
              obtain ⟨units', rest, hfeeds, hprefix', hok'⟩ := ih hle
                (fun c hc => hchunks c (List.mem_cons_of_mem _ hc)) hfit.2
              rw [hpending] at hfeeds
              refine ⟨units ++ units', rest, .cons hunits hfeeds, ?_, fun hrunok => ?_⟩
              · rw [hall, List.filter_append]
                exact (List.prefix_append_right_inj _).mpr hprefix'
              · rw [run, EStateM.run_bind_ok hrun] at hrunok
                rw [hall, List.filter_append]
                dsimp only
                rw [hok' hrunok]

end Steady

namespace Scenario

def streaming : Config PUnit PUnit :=
  { alice with rawFraming := false, world := { alice.world with clock := fun _ => 0 } }

def streamingStart : Steady PUnit PUnit :=
  start streaming 7 8

def junk (n : ℕ) : Bytes :=
  List.replicate n 0xff

def misaligned : List Steady.Input :=
  let stream := encodeStream (List.replicate 5 (junk 500))
  [0, 500, 1000, 1500, 2000, 2500].map fun i => .recv (Bytes.slice i (i + 500) stream)

def cut : List Steady.Input :=
  let stream := encodeStream [junk 3, junk 300, junk 5]
  [.recv (stream.take 6), .timer, .recv (Bytes.slice 6 106 stream), .recv (stream.drop 106)]

end Scenario

namespace Steady

/-- From an empty buffer and as long as no chunk overflows it, the frames that the loop takes from
the stream are the frames that were sent, in order; a session that ends takes no frame behind the
one at which it ended. -/
theorem extracted_eq_frames (hraw : C.rawFraming = false) {s : Steady H M}
    (hempty : s.rbuf = [] ∧ s.rpos = 0) {frames : List Bytes}
    (hframes : ∀ frame ∈ frames, 1 ≤ frame.length ∧ frame.length ≤ 1500) {inputs : List Input}
    (hchunks : ∀ chunk ∈ chunks inputs, chunk.length ≤ 547)
    (hstream : (chunks inputs).flatten = encodeStream frames) (hfit : Unflushed C inputs s) :
    extracted C inputs s <+: frames ∧
      (((run C inputs).run s).isOk = true → extracted C inputs s = frames) := by
  have hpending : s.pending = [] := by rw [pending, hempty.1, List.drop_nil]
  have hsmall : ∀ chunk ∈ chunks inputs, chunk.length ≤ recvBufSize :=
    fun chunk hc => (hchunks chunk hc).trans (by decide)
  obtain ⟨units, rest, hfeeds, hextracted⟩ :=
    extracted_feeds hraw inputs (by rw [hempty.2]; exact Nat.zero_le _) hsmall hfit
  rw [hpending] at hfeeds
  have hdecodes := hfeeds.decodes StreamDecoder.next_nil
  rw [List.nil_append, hstream] at hdecodes
  obtain ⟨rfl, -⟩ := hdecodes.unique (decodes_encodeStream hframes)
  rw [filter_ne_nil_of_carried hframes] at hextracted
  exact hextracted

open Scenario in
theorem extracted_eq_frames_cut :
    extracted streaming cut streamingStart = [junk 3, junk 300, junk 5] := by
  have h : (∀ frame ∈ [junk 3, junk 300, junk 5], 1 ≤ frame.length ∧ frame.length ≤ 1500) ∧
      (∀ chunk ∈ chunks cut, chunk.length ≤ 547) ∧
      (chunks cut).flatten = encodeStream [junk 3, junk 300, junk 5] ∧
      Unflushed streaming cut streamingStart ∧
      ((run streaming cut).run streamingStart).isOk = true := by
    decide +kernel
  obtain ⟨hframes, hchunks, hstream, hfit, hok⟩ := h
  exact (extracted_eq_frames streaming rfl ⟨rfl, rfl⟩ hframes hchunks hstream hfit).2 hok

open Scenario in
/-- The five frames of the stream are all within the bounds and so are its chunks, but the fifth
chunk finds the buffer full: the bytes of the three frames that were read are still in it. -/
theorem extracted_misaligned :
    (∀ chunk ∈ chunks misaligned, chunk.length ≤ 547) ∧
      (chunks misaligned).flatten = encodeStream (List.replicate 5 (junk 500)) ∧
      ((run streaming misaligned).run streamingStart).isOk = true ∧
      extracted streaming misaligned streamingStart = List.replicate 3 (junk 500) := by
  decide +kernel

end Steady
end Node
end Microfips

import Microfips.EspNow.Fragment
import Microfips.Wire.Stream

/-!
# From USB to the radio

`usb_to_espnow_task` of the gateway, file `espnow_gateway.rs`.  It collects what it reads until a
frame with its length is there, and sends the frame in fragments.  What it collects in is as long as
the largest frame with its length, so a read that brings the end of a large frame and the beginning
of the next one can be too much, and then both are dropped.
-/

namespace Microfips
namespace EspNow

open Wire

def accCap : ℕ := 2 + maxMessage

/-- The length of `tmp`: a read brings at most so many bytes. -/
def readCap : ℕ := 256

def broadcastAddress : Mac := Block.replicate 6 0xff

structure Transmission where
  dst : Mac
  payloads : List Bytes
  deriving DecidableEq

structure UsbToEspNow where
  fragmenter : Fragmenter
  acc : Bytes
  sent : List Transmission
  deriving DecidableEq

namespace UsbToEspNow

def start : UsbToEspNow where
  fragmenter := Fragmenter.new
  acc := []
  sent := []

-- the station in `PEER_MAC` when the frame of that number is sent
variable (peers : ℕ → Option Mac)

def forward (frame : Bytes) (s : UsbToEspNow) : UsbToEspNow :=
  match s.fragmenter.fragments frame with
  | none => s
  | some (payloads, fragmenter) =>
      let dst := (peers s.sent.length).getD broadcastAddress
      { s with fragmenter, sent := s.sent ++ [⟨dst, payloads⟩] }

def drain : ℕ → UsbToEspNow → UsbToEspNow
  | 0, s => s
  | fuel + 1, s =>
      if s.acc.length < 2 then
        s
      else
        let ml := Bytes.toNat (s.acc.take 2)
        if ml = 0 ∨ maxMessage < ml then
          { s with acc := [] }
        else if s.acc.length < 2 + ml then
          s
        else
          drain fuel { forward peers (Bytes.slice 2 (2 + ml) s.acc) s with
            acc := s.acc.drop (2 + ml) }

def read (s : UsbToEspNow) (chunk : Bytes) : UsbToEspNow :=
  if accCap < s.acc.length + chunk.length then
    { s with acc := [] }
  else
    drain peers (s.acc ++ chunk).length { s with acc := s.acc ++ chunk }

def run (s : UsbToEspNow) (chunks : List Bytes) : UsbToEspNow :=
  chunks.foldl (read peers) s

def transmission (i : ℕ) (frame : Bytes) : Transmission where
  dst := (peers i).getD broadcastAddress
  payloads := (List.range (frame.windowCount maxChunk)).map (fragment (UInt8.ofNat i) frame)

end UsbToEspNow

def Sendable (frame : Bytes) : Prop :=
  1 ≤ frame.length ∧ frame.length ≤ maxMessage

instance (frame : Bytes) : Decidable (Sendable frame) :=
  inferInstanceAs (Decidable (_ ∧ _))

/-- Of the first so many bytes of the stream of the frames, those of a frame that is not
complete. -/
def unfinished : List Bytes → ℕ → ℕ
  | [], n => n
  | frame :: frames, n =>
      if 2 + frame.length ≤ n then unfinished frames (n - (2 + frame.length)) else n

namespace UsbToEspNow

variable {peers : ℕ → Option Mac} {s : UsbToEspNow} {done rest : List Bytes} {later : Bytes}

variable (peers) in
/-- Some frames are sent, and the rest is in the accumulator and in what is still to be read. -/
structure Through (s : UsbToEspNow) (done rest : List Bytes) (later : Bytes) : Prop where
  stream : s.acc ++ later = encodeStream rest
  nextMsgId : s.fragmenter.nextMsgId = UInt8.ofNat done.length
  sent : s.sent = done.mapIdx (transmission peers)

def Waits (s : UsbToEspNow) (rest : List Bytes) : Prop :=
  ∀ frame ∈ rest.head?, s.acc.length < 2 + frame.length

variable {frame : Bytes} {frames : List Bytes} {n : ℕ}

theorem forward_sendable (h : frame.length ≤ maxMessage) :
    forward peers frame s = { s with
      fragmenter := ⟨s.fragmenter.nextMsgId + 1⟩
      sent := s.sent ++ [⟨(peers s.sent.length).getD broadcastAddress,
        (List.range (frame.windowCount maxChunk)).map
          (fragment s.fragmenter.nextMsgId frame)⟩] } := by
  rw [forward, Fragmenter.fragments_eq _ h]

theorem Through.forward (h : Through peers s done (frame :: rest) later) (hframe : Sendable frame)
    (hlen : 2 + frame.length ≤ s.acc.length) :
    Through peers { forward peers frame s with acc := s.acc.drop (2 + frame.length) }
      (done ++ [frame]) rest later where
  stream := by
    have hdrop : (encodeFrame frame).length = 2 + frame.length := by
      rw [encodeFrame, List.length_append, Bytes.ofNat_length]
    have hstream := congrArg (List.drop (2 + frame.length)) h.stream
    rw [List.drop_append_of_le_length hlen] at hstream
    exact hstream.trans (List.drop_left' hdrop)
  nextMsgId := by
    rw [forward_sendable hframe.2, List.length_append, UInt8.ofNat_add, h.nextMsgId]
    rfl
  sent := by
    have hcount : s.sent.length = done.length := by rw [h.sent, List.length_mapIdx]
    rw [forward_sendable hframe.2, List.mapIdx_concat]
    dsimp only
    rw [hcount, h.nextMsgId, h.sent]
    rfl

theorem Through.front (h : Through peers s done (frame :: rest) later) (hframe : Sendable frame)
    (htwo : 2 ≤ s.acc.length) :
    Bytes.toNat (s.acc.take 2) = frame.length ∧
      (2 + frame.length ≤ s.acc.length → Bytes.slice 2 (2 + frame.length) s.acc = frame) := by
  have hstream : s.acc ++ later = Bytes.ofNat 2 frame.length ++ (frame ++ encodeStream rest) := by
    rw [h.stream, ← List.append_assoc]
    rfl
  constructor
  · have htake := congrArg (List.take 2) hstream
    rw [List.take_append_of_le_length htwo, List.take_left' (Bytes.ofNat_length 2 _)] at htake
    have hmax : frame.length ≤ 2048 := hframe.2
    rw [htake, Bytes.toNat_ofNat, Nat.mod_eq_of_lt (by omega)]
  · intro hlen
    have hslice := congrArg (Bytes.slice 2 (2 + frame.length)) hstream
    rw [Bytes.slice, List.drop_append_of_le_length htwo,
      List.take_append_of_le_length (by rw [List.length_drop]; omega)] at hslice
    rw [Bytes.slice, hslice, Bytes.slice, List.drop_left' (Bytes.ofNat_length 2 _),
      Nat.add_sub_cancel_left, List.take_left]

theorem Through.stop (h : Through peers s done rest later) (hwaits : s.Waits rest) :
    ∃ now rest', rest = now ++ rest' ∧ Through peers s (done ++ now) rest' later ∧
      s.Waits rest' :=
  ⟨[], rest, rfl, by rwa [List.append_nil], hwaits⟩

theorem Through.drain {fuel : ℕ} (h : Through peers s done rest later)
    (hrest : ∀ frame ∈ rest, Sendable frame) (hfuel : s.acc.length ≤ fuel) :
    ∃ now rest', rest = now ++ rest' ∧
      Through peers (drain peers fuel s) (done ++ now) rest' later ∧
      (UsbToEspNow.drain peers fuel s).Waits rest' := by
  induction fuel generalizing s done rest with
  | zero =>
      apply h.stop
      intro frame _
      omega
  | succ fuel ih =>
      rw [UsbToEspNow.drain]
      split
      · apply h.stop
        intro frame _
        omega
      · next htwo =>
          cases rest with
          | nil =>
              have hnil := List.append_eq_nil_iff.mp h.stream
              exact absurd (by rw [hnil.1]; decide) htwo
          | cons frame rest =>
              have hframe := hrest frame List.mem_cons_self
              obtain ⟨hml, hslice⟩ := h.front hframe (Nat.le_of_not_lt htwo)
              dsimp only
              rw [hml, if_neg (by rw [not_or]; exact
                ⟨Nat.ne_of_gt hframe.1, Nat.not_lt.mpr hframe.2⟩)]
              split
              · next hshort =>
                  apply h.stop
                  rintro frame' ⟨⟩
                  exact hshort
              · next hlong =>
                  have hlen := Nat.le_of_not_lt hlong
                  rw [hslice hlen]
                  have hdrop : (s.acc.drop (2 + frame.length)).length ≤ fuel := by
                    rw [List.length_drop]
                    omega
                  obtain ⟨now, rest', rfl, hthrough, hwaits⟩ := ih (h.forward hframe hlen)
                    (fun f hf => hrest f (List.mem_cons_of_mem _ hf)) hdrop
                  rw [List.append_assoc] at hthrough
                  exact ⟨frame :: now, rest', rfl, hthrough, hwaits⟩

theorem encodeStream_append (frames frames' : List Bytes) :
    encodeStream (frames ++ frames') = encodeStream frames ++ encodeStream frames' :=
  List.flatMap_append

theorem length_encodeStream_cons (frame : Bytes) (frames : List Bytes) :
    (encodeStream (frame :: frames)).length =
      2 + frame.length + (encodeStream frames).length := by
  rw [encodeStream, List.flatMap_cons, List.length_append, encodeFrame, List.length_append,
    Bytes.ofNat_length]
  rfl

/-- What is in the accumulator is what is unfinished of the bytes that were read. -/
theorem Waits.unfinished (h : s.Waits rest) :
    EspNow.unfinished (done ++ rest) ((encodeStream done).length + s.acc.length) =
      s.acc.length := by
  induction done with
  | nil =>
      cases rest with
      | nil => exact Nat.zero_add _
      | cons frame rest =>
          have hlt := h frame rfl
          rw [List.nil_append, EspNow.unfinished, if_neg]
          · exact Nat.zero_add _
          · change ¬ 2 + frame.length ≤ 0 + s.acc.length
            omega
  | cons frame done ih =>
      have hlen := length_encodeStream_cons frame done
      rw [List.cons_append, EspNow.unfinished, if_pos (by omega), hlen, Nat.add_assoc,
        Nat.add_sub_cancel_left]
      exact ih

/-- Where the accumulator has room for what is read, the frames that are complete with it are
sent. -/
theorem Through.read {chunk : Bytes} (h : Through peers s done rest (chunk ++ later))
    (hrest : ∀ frame ∈ rest, Sendable frame) (hroom : s.acc.length + chunk.length ≤ accCap) :
    ∃ now rest', rest = now ++ rest' ∧
      Through peers (s.read peers chunk) (done ++ now) rest' later ∧
      (s.read peers chunk).Waits rest' := by
  have hmore : Through peers { s with acc := s.acc ++ chunk } done rest later :=
    ⟨by rw [← h.stream, List.append_assoc], h.nextMsgId, h.sent⟩
  rw [UsbToEspNow.read, if_neg (Nat.not_lt.mpr hroom)]
  exact hmore.drain hrest le_rfl

/-- The accumulator has room at each read, behind so many bytes. -/
def Room (frames : List Bytes) : ℕ → List Bytes → Prop
  | _, [] => True
  | n, chunk :: chunks =>
      unfinished frames n + chunk.length ≤ accCap ∧ Room frames (n + chunk.length) chunks

theorem Through.run {chunks : List Bytes} (h : Through peers s done rest chunks.flatten)
    (hwaits : s.Waits rest) (hframes : frames = done ++ rest)
    (hsend : ∀ frame ∈ frames, Sendable frame) (hn : n = (encodeStream done).length + s.acc.length)
    (hroom : Room frames n chunks) :
    s.run peers chunks =
      ⟨⟨UInt8.ofNat frames.length⟩, [], frames.mapIdx (transmission peers)⟩ := by
  induction chunks generalizing s done rest n with
  | nil =>
      cases rest with
      | cons frame rest =>
          have hstream := congrArg List.length h.stream
          rw [List.flatten_nil, List.append_nil, length_encodeStream_cons] at hstream
          have hlt := hwaits frame rfl
          omega
      | nil =>
          obtain ⟨hacc, -⟩ := List.append_eq_nil_iff.mp h.stream
          obtain rfl : frames = done := by rw [hframes, List.append_nil]
          obtain ⟨⟨nextMsgId⟩, acc, sent⟩ := s
          obtain rfl : acc = [] := hacc
          obtain rfl := h.nextMsgId
          obtain rfl := h.sent
          rfl
  | cons chunk chunks ih =>
      obtain ⟨hnow, hlater⟩ := hroom
      rw [hframes, hn, hwaits.unfinished] at hnow
      rw [List.flatten_cons] at h
      have hrest : ∀ frame ∈ rest, Sendable frame := fun frame hframe =>
        hsend frame (hframes ▸ List.mem_append_right done hframe)
      obtain ⟨now, rest', rfl, h', hwaits'⟩ := h.read hrest hnow
      refine ih h' hwaits' (by rw [hframes, List.append_assoc]) ?_ hlater
      -- the bytes that were read are those of the frames that were sent and what is left
      have hlen := congrArg List.length h.stream
      rw [encodeStream_append, ← h'.stream] at hlen
      rw [hn, encodeStream_append]
      simp only [List.length_append] at hlen ⊢
      omega

/-- The gateway sends each frame once, unchanged and in order, over every way to cut their stream in
which the accumulator has room for each read behind what is unfinished. -/
theorem usb_frames_sent (peers : ℕ → Option Mac) {frames chunks : List Bytes}
    (hsend : ∀ frame ∈ frames, Sendable frame) (hcut : chunks.flatten = encodeStream frames)
    (hroom : Room frames 0 chunks) :
    start.run peers chunks =
      ⟨⟨UInt8.ofNat frames.length⟩, [], frames.mapIdx (transmission peers)⟩ := by
  have hstart : Through peers start [] frames chunks.flatten := ⟨hcut, rfl, rfl⟩
  refine hstart.run (fun frame _ => ?_) rfl hsend rfl hroom
  change 0 < 2 + frame.length
  omega

theorem unfinished_le {k : ℕ} (h : ∀ frame ∈ frames, frame.length ≤ k)
    (hn : n ≤ (encodeStream frames).length) : unfinished frames n ≤ k + 1 := by
  induction frames generalizing n with
  | nil => exact hn.trans (Nat.zero_le _)
  | cons frame frames ih =>
      have hframe := h frame List.mem_cons_self
      rw [length_encodeStream_cons] at hn
      rw [unfinished]
      split
      · exact ih (fun f hf => h f (List.mem_cons_of_mem _ hf)) (by omega)
      · omega

/-- There is room for every way to cut the stream into reads, where the frames leave room for a read
behind all but the last byte of one. -/
theorem room_of_length_le {chunks : List Bytes}
    (h : ∀ frame ∈ frames, frame.length + 1 + readCap ≤ accCap)
    (hchunks : ∀ chunk ∈ chunks, chunk.length ≤ readCap)
    (hn : n + chunks.flatten.length ≤ (encodeStream frames).length) : Room frames n chunks := by
  induction chunks generalizing n with
  | nil => exact trivial
  | cons chunk chunks ih =>
      have hchunk := hchunks chunk List.mem_cons_self
      rw [List.flatten_cons, List.length_append] at hn
      constructor
      · have hle := unfinished_le (k := accCap - 1 - readCap)
          (fun frame hframe => by have := h frame hframe; omega) (by omega : n ≤ _)
        have hcap : accCap - 1 - readCap + 1 + readCap = accCap := by decide
        omega
      · exact ih (fun c hc => hchunks c (List.mem_cons_of_mem _ hc)) (by omega)

/-- Two frames in three reads, of which the second has the end of the first frame and the length of
the other. -/
theorem usb_frames_sent_two :
    start.run (fun _ => none) [[3, 0, 1], [2, 3, 1], [0, 4]] =
      ⟨⟨2⟩, [], [[1, 2, 3], [4]].mapIdx (transmission fun _ => none)⟩ := by
  have hsend : ∀ frame ∈ ([[1, 2, 3], [4]] : List Bytes), Sendable frame := by
    simp [Sendable, maxMessage]
  have hroom : Room [[1, 2, 3], [4]] 0 [[3, 0, 1], [2, 3, 1], [0, 4]] :=
    room_of_length_le (by simp [accCap, readCap, maxMessage]) (by simp [readCap]) le_rfl
  exact usb_frames_sent _ hsend rfl hroom

def largeThenSmall : List Bytes :=
  [List.replicate maxMessage 1, [7]]

def fullReads : List Bytes :=
  (List.range 9).map ((encodeStream largeThenSmall).window readCap)

/-- The last read brings the end of the large frame and the small one, and both are dropped. -/
theorem usb_frames_dropped :
    largeThenSmall.all (fun frame => decide (Sendable frame)) = true ∧
      fullReads.all (fun chunk => decide (chunk.length ≤ readCap)) = true ∧
      fullReads.flatten = encodeStream largeThenSmall ∧
      start.run (fun _ => none) fullReads = start := by
  decide +kernel

end UsbToEspNow

end EspNow
end Microfips

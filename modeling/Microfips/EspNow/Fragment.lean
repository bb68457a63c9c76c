import Mathlib.Data.List.Nodup
import Microfips.Data.Bytes
import Microfips.Data.Chunks
import Microfips.Data.Fallible

/-!
# Fragments of a message

The codec of `microfips-esp-common`, file `espnow_frag.rs`.  A message is cut into chunks of 248
bytes, each behind a message id and its index with a flag on the last one.  The reassembler keeps
one message at a time and takes its fragments in order; everything else drops what it has.

A fragment is determined by the id and the index in its header as long as no two messages of its
source share an id, that is, over 256 consecutive messages.  What the reassembler holds is then
always the beginning of one message of one source.
-/

namespace Microfips
namespace EspNow

def espNowMaxPayload : ℕ := 250

def fragHeaderLen : ℕ := 2

def maxChunk : ℕ := espNowMaxPayload - fragHeaderLen

def maxMessage : ℕ := 2048

def lastFlag : UInt8 := 0x80

def idxMask : UInt8 := 0x7f

abbrev Mac : Type := Block 6

structure FragmentIter where
  msgId : UInt8
  data : Bytes
  idx : UInt8
  done : Bool
  deriving DecidableEq

namespace FragmentIter

def next (self : FragmentIter) : Option (Bytes × FragmentIter) :=
  if self.done then
    none
  else
    let take := min self.data.length maxChunk
    let chunk := self.data.take take
    let rest := self.data.drop take
    let last := rest.isEmpty
    let header := [self.msgId, self.idx &&& idxMask ||| if last then lastFlag else 0]
    some (header ++ chunk, { self with data := rest, idx := self.idx + 1, done := last })

def payloads : ℕ → FragmentIter → List Bytes
  | 0, _ => []
  | n + 1, self =>
      match self.next with
      | none => []
      | some (payload, self) => payload :: payloads n self

end FragmentIter

structure Fragmenter where
  nextMsgId : UInt8
  deriving DecidableEq

namespace Fragmenter

def new : Fragmenter where
  nextMsgId := 0

def fragments (self : Fragmenter) (data : Bytes) : Option (List Bytes × Fragmenter) :=
  if maxMessage < data.length then
    none
  else
    some (FragmentIter.payloads (data.length + 1) ⟨self.nextMsgId, data, 0, false⟩,
      { nextMsgId := self.nextMsgId + 1 })

end Fragmenter

structure Reassembler where
  buf : Block maxMessage
  len : ℕ
  msgId : UInt8
  nextIdx : UInt8
  active : Bool
  deriving DecidableEq

/-- `buf[i..i + data.len()].copy_from_slice(data)`, nothing where the range leaves the buffer. -/
def writeAt {n : ℕ} (buf : Block n) (i : ℕ) (data : Bytes) : Option (Block n) :=
  if h : i + data.length ≤ n then
    some {
      bytes := buf.bytes.take i ++ data ++ buf.bytes.drop (i + data.length)
      length_eq := by simp; omega }
  else
    none

namespace Reassembler

def new : Reassembler where
  buf := Block.replicate maxMessage 0
  len := 0
  msgId := 0
  nextIdx := 0
  active := false

def reset (self : Reassembler) : Reassembler :=
  { self with active := false }

/-- The part of `push` behind the checks of the header: the chunk goes behind what is there. -/
def append (idx : UInt8) (last : Bool) (chunk : Bytes) :
    EStateM (Fault Empty) Reassembler (Option Bytes) := fun self =>
  if maxMessage < self.len + chunk.length then
    .ok none { self with active := false }
  else
    match writeAt self.buf self.len chunk with
    | none => .error .panic self
    | some buf =>
        let self := { self with buf, len := self.len + chunk.length, nextIdx := idx + 1 }
        if last then
          .ok (some (self.buf.bytes.take self.len)) { self with active := false }
        else
          .ok none self

def push (payload : Bytes) : EStateM (Fault Empty) Reassembler (Option Bytes) := fun self =>
  if payload.length < fragHeaderLen ∨ espNowMaxPayload < payload.length then
    .ok none { self with active := false }
  else
    let msgId := payload.getD 0 0
    let last := decide (payload.getD 1 0 &&& lastFlag ≠ 0)
    let idx := payload.getD 1 0 &&& idxMask
    let chunk := payload.drop fragHeaderLen
    if idx = 0 then
      (append idx last chunk).run { self with msgId, len := 0, nextIdx := 0, active := true }
    else if self.active = false ∨ msgId ≠ self.msgId ∨ idx ≠ self.nextIdx then
      .ok none { self with active := false }
    else
      (append idx last chunk).run self

end Reassembler

structure SrcReassembler where
  reassembler : Reassembler
  src : Option Mac
  deriving DecidableEq

namespace SrcReassembler

def new : SrcReassembler where
  reassembler := Reassembler.new
  src := none

def push (src : Mac) (payload : Bytes) : EStateM (Fault Empty) SrcReassembler (Option Bytes) :=
  fun self =>
    let reassembler := if self.src = some src then self.reassembler else self.reassembler.reset
    match (Reassembler.push payload).run reassembler with
    | .ok out reassembler => .ok out { reassembler, src := some src }
    | .error e reassembler => .error e { reassembler, src := some src }

end SrcReassembler

def fragment (msgId : UInt8) (data : Bytes) (i : ℕ) : Bytes :=
  [msgId, UInt8.ofNat i &&& idxMask |||
    if i + 1 = data.windowCount maxChunk then lastFlag else 0] ++ data.window maxChunk i

namespace FragmentIter

theorem payloads_done {self : FragmentIter} (h : self.done = true) (n : ℕ) :
    payloads n self = [] := by
  cases n with
  | zero => rfl
  | succ n => rw [payloads, next, if_pos h]

def before (msgId : UInt8) (data : Bytes) (i : ℕ) : FragmentIter where
  msgId := msgId
  data := data.drop (maxChunk * i)
  idx := UInt8.ofNat i
  done := false

theorem before_next (msgId : UInt8) {data : Bytes} {i : ℕ}
    (hi : i < data.windowCount maxChunk) :
    (before msgId data i).next = some (fragment msgId data i,
      { before msgId data (i + 1) with
        done := decide (i + 1 = data.windowCount maxChunk) }) := by
  have hrest : (data.drop (maxChunk * i)).drop (min (data.drop (maxChunk * i)).length maxChunk) =
      data.drop (maxChunk * (i + 1)) := by
    rw [List.drop_length_min, List.drop_drop, Nat.mul_add, Nat.mul_one]
  have hlast : (data.drop (maxChunk * (i + 1))).isEmpty =
      decide (i + 1 = data.windowCount maxChunk) := by
    rw [Bool.eq_iff_iff, List.isEmpty_iff, decide_eq_true_iff,
      List.drop_eq_nil_iff_windowCount (by decide) hi]
  have hidx : UInt8.ofNat i + 1 = UInt8.ofNat (i + 1) := by
    rw [UInt8.ofNat_add]
    rfl
  rw [next, before, if_neg Bool.false_ne_true]
  simp only [hrest, hlast, hidx, List.take_length_min, decide_eq_true_eq]
  rfl

theorem payloads_before (msgId : UInt8) {data : Bytes} {i n : ℕ}
    (hi : i < data.windowCount maxChunk) (hn : data.windowCount maxChunk ≤ i + n) :
    payloads n (before msgId data i) =
      (List.range' i (data.windowCount maxChunk - i)).map (fragment msgId data) := by
  induction n generalizing i with
  | zero => omega
  | succ n ih =>
      rw [payloads, before_next msgId hi]
      obtain ⟨k, hk⟩ : ∃ k, data.windowCount maxChunk - i = k + 1 :=
        ⟨_, (by omega : _ = (data.windowCount maxChunk - i - 1) + 1)⟩
      rw [hk, List.range'_succ, List.map_cons]
      by_cases hlast : i + 1 = data.windowCount maxChunk
      · obtain rfl : k = 0 := by omega
        dsimp only
        rw [payloads_done (decide_eq_true hlast)]
        rfl
      · have hrec := ih (by omega : i + 1 < data.windowCount maxChunk) (by omega)
        rw [show data.windowCount maxChunk - (i + 1) = k by omega] at hrec
        rw [decide_eq_false hlast, ← hrec]
        rfl

end FragmentIter

variable {data : Bytes}

theorem windowCount_le (h : data.length ≤ maxMessage) : data.windowCount maxChunk ≤ 9 := by
  have hdiv : (data.length - 1) / maxChunk ≤ (maxMessage - 1) / maxChunk :=
    Nat.div_le_div_right (Nat.sub_le_sub_right h 1)
  exact Nat.succ_le_succ hdiv

/-- `fragments` gives the fragments of the message under the next id. -/
theorem Fragmenter.fragments_eq (self : Fragmenter) (h : data.length ≤ maxMessage) :
    self.fragments data = some ((List.range (data.windowCount maxChunk)).map
      (fragment self.nextMsgId data), { nextMsgId := self.nextMsgId + 1 }) := by
  have hcount : data.windowCount maxChunk ≤ 0 + (data.length + 1) := by
    have hdiv : (data.length - 1) / maxChunk ≤ data.length - 1 := Nat.div_le_self _ _
    rw [List.windowCount]
    omega
  have hpayloads := FragmentIter.payloads_before self.nextMsgId List.windowCount_pos hcount
  rw [Nat.sub_zero, ← List.range_eq_range'] at hpayloads
  rw [fragments, if_neg (Nat.not_lt.mpr h), ← hpayloads]
  rfl

theorem header_byte {i : ℕ} (h : i < 128) (last : Prop) [Decidable last] :
    (UInt8.ofNat i &&& idxMask ||| if last then lastFlag else 0) &&& idxMask = UInt8.ofNat i ∧
      ((UInt8.ofNat i &&& idxMask ||| if last then lastFlag else 0) &&& lastFlag ≠ 0 ↔ last) := by
  have hall : ∀ i : Fin 128,
      (UInt8.ofNat i &&& idxMask ||| lastFlag) &&& idxMask = UInt8.ofNat i ∧
        (UInt8.ofNat i &&& idxMask ||| lastFlag) &&& lastFlag ≠ 0 ∧
        (UInt8.ofNat i &&& idxMask ||| 0) &&& idxMask = UInt8.ofNat i ∧
        (UInt8.ofNat i &&& idxMask ||| 0) &&& lastFlag = 0 := by
    decide
  obtain ⟨hidx, hlast, hidx', hnot⟩ := hall ⟨i, h⟩
  by_cases hp : last
  · rw [if_pos hp]
    exact ⟨hidx, iff_of_true hlast hp⟩
  · rw [if_neg hp]
    exact ⟨hidx', iff_of_false (not_not.mpr hnot) hp⟩

theorem writeAt_eq_some {n : ℕ} (buf : Block n) {i : ℕ} (h : i + data.length ≤ n) :
    ∃ buf', writeAt buf i data = some buf' ∧
      buf'.bytes.take (i + data.length) = buf.bytes.take i ++ data := by
  refine ⟨_, dif_pos h, ?_⟩
  refine List.take_left' ?_
  rw [List.length_append, List.length_take, buf.length_bytes]
  omega

namespace Reassembler

theorem push_returns (payload : Bytes) (r : Reassembler) :
    ∃ out t, (push payload).run r = .ok out t := by
  have happend : ∀ idx last chunk (r : Reassembler), ∃ out t,
      (append idx last chunk).run r = .ok out t := by
    intro idx last chunk r
    rw [EStateM.run, append]
    split
    · exact ⟨_, _, rfl⟩
    · rename_i hfits
      obtain ⟨buf, hwrite, -⟩ := writeAt_eq_some r.buf (Nat.le_of_not_lt hfits)
      rw [hwrite]
      dsimp only
      split
      · exact ⟨_, _, rfl⟩
      · exact ⟨_, _, rfl⟩
  rw [EStateM.run, push]
  split
  · exact ⟨_, _, rfl⟩
  · dsimp only
    split
    · exact happend _ _ _ _
    · split
      · exact ⟨_, _, rfl⟩
      · exact happend _ _ _ _

def content (r : Reassembler) : Bytes :=
  r.buf.bytes.take r.len

theorem append_content {idx : UInt8} {last : Bool} {chunk : Bytes} {r t : Reassembler}
    {out : Option Bytes} (h : (append idx last chunk).run r = .ok out t) :
    (t.active = true → t.content = r.content ++ chunk) ∧ ∀ m ∈ out, m = r.content ++ chunk := by
  rw [EStateM.run, append] at h
  split at h
  · cases h
    refine ⟨fun hactive => ?_, fun m hm => ?_⟩
    · cases hactive
    · cases hm
  · next hfits =>
      obtain ⟨buf, hwrite, htake⟩ := writeAt_eq_some r.buf (Nat.le_of_not_lt hfits)
      rw [hwrite] at h
      dsimp only at h
      split at h
      · cases h
        refine ⟨fun hactive => ?_, ?_⟩
        · cases hactive
        · rintro m ⟨⟩
          exact htake
      · cases h
        refine ⟨fun _ => htake, fun m hm => ?_⟩
        cases hm

/-- What a payload completes or leaves is its chunk, alone or behind what was there. -/
theorem push_content {payload : Bytes} {r t : Reassembler} {out : Option Bytes}
    (h : (push payload).run r = .ok out t) :
    let Continues (b : Bytes) := b = payload.drop fragHeaderLen ∨
      r.active = true ∧ b = r.content ++ payload.drop fragHeaderLen
    (t.active = true → Continues t.content) ∧ ∀ m ∈ out, Continues m := by
  intro Continues
  have hdrop : ∀ r' : Reassembler, r'.active = false →
      (EStateM.Result.ok none r' : EStateM.Result (Fault Empty) _ _) = .ok out t →
      (t.active = true → Continues t.content) ∧ ∀ m ∈ out, Continues m := by
    rintro r' hactive heq
    cases heq
    refine ⟨fun htrue => ?_, fun m hm => ?_⟩
    · rw [hactive] at htrue
      cases htrue
    · cases hm
  rw [EStateM.run, push] at h
  split at h
  · exact hdrop _ rfl h
  · dsimp only at h
    split at h
    · obtain ⟨hactive, hout⟩ := append_content h
      exact ⟨fun htrue => .inl (hactive htrue), fun m hm => .inl (hout m hm)⟩
    · split at h
      · exact hdrop _ rfl h
      · next hnext =>
          have hr : r.active = true := by
            rw [not_or, Bool.not_eq_false] at hnext
            exact hnext.1
          obtain ⟨hactive, hout⟩ := append_content h
          exact ⟨fun htrue => .inr ⟨hr, hactive htrue⟩, fun m hm => .inr ⟨hr, hout m hm⟩⟩

/-- The reassembler has the first `k` fragments of a message, and waits for another one. -/
structure Holds (r : Reassembler) (msgId : UInt8) (m : Bytes) (k : ℕ) : Prop where
  active : r.active = true
  msgId : r.msgId = msgId
  nextIdx : r.nextIdx = UInt8.ofNat k
  len : r.len = maxChunk * k
  buf : r.buf.bytes.take (maxChunk * k) = m.take (maxChunk * k)
  lt : k < m.windowCount maxChunk

variable {r : Reassembler} {msgId : UInt8} {m : Bytes} {i : ℕ}

/-- The next fragment completes the message, or is kept with those before it. -/
theorem append_run (hm : m.length ≤ maxMessage) (hlt : i < m.windowCount maxChunk)
    (hactive : r.active = true) (hid : r.msgId = msgId) (hlen : r.len = maxChunk * i)
    (hbuf : r.buf.bytes.take (maxChunk * i) = m.take (maxChunk * i)) :
    ∃ t, (append (UInt8.ofNat i) (decide (i + 1 = m.windowCount maxChunk))
        (m.window maxChunk i)).run r =
        .ok (if i + 1 = m.windowCount maxChunk then some m else none) t ∧
      (i + 1 = m.windowCount maxChunk → t.active = false) ∧
      (i + 1 ≠ m.windowCount maxChunk → t.Holds msgId m (i + 1)) := by
  have hchunk : maxChunk * i + (m.window maxChunk i).length =
      min (maxChunk * (i + 1)) m.length := by
    have hle : maxChunk * i ≤ m.length := by
      cases i with
      | zero => exact Nat.zero_le _
      | succ i => exact (List.mul_lt_length_of_lt (by decide) hlt).le
    rw [List.window, List.length_take, List.length_drop, Nat.mul_add]
    omega
  have hfits : ¬ maxMessage < r.len + (m.window maxChunk i).length := by
    rw [hlen, hchunk]
    omega
  obtain ⟨buf', hwrite, htake⟩ := writeAt_eq_some r.buf (Nat.le_of_not_lt hfits)
  rw [hlen, hbuf, List.take_append_window] at htake
  rw [EStateM.run, append, if_neg hfits, hwrite]
  dsimp only
  by_cases hlast : i + 1 = m.windowCount maxChunk
  · have hall : m.take (maxChunk * (i + 1)) = m :=
      List.take_of_length_le (List.length_le_mul_of_eq (by decide) hlast)
    rw [hall] at htake
    rw [if_pos (decide_eq_true hlast), if_pos hlast, hlen, htake]
    exact ⟨_, rfl, fun _ => rfl, fun hne => absurd hlast hne⟩
  · have hwhole : maxChunk * (i + 1) < m.length :=
      List.mul_lt_length_of_lt (by decide) (Nat.lt_of_le_of_ne hlt hlast)
    have hsum : r.len + (m.window maxChunk i).length = maxChunk * (i + 1) := by
      rw [hlen, hchunk, Nat.min_eq_left hwhole.le]
    rw [if_neg (by rw [decide_eq_false hlast]; exact Bool.false_ne_true), if_neg hlast]
    refine ⟨_, rfl, fun h => absurd h hlast, fun _ => ?_⟩
    exact {
      active := hactive
      msgId := hid
      nextIdx := by
        rw [UInt8.ofNat_add]
        rfl
      len := hsum
      buf := by
        rw [hlen] at hsum
        rw [← hsum]
        exact htake.trans (by rw [hsum])
      lt := Nat.lt_of_le_of_ne hlt hlast }

theorem fragment_header (msgId : UInt8) (hm : m.length ≤ maxMessage)
    (hlt : i < m.windowCount maxChunk) :
    ¬ ((fragment msgId m i).length < fragHeaderLen ∨
        espNowMaxPayload < (fragment msgId m i).length) ∧
      (fragment msgId m i).getD 0 0 = msgId ∧
      decide ((fragment msgId m i).getD 1 0 &&& lastFlag ≠ 0) =
        decide (i + 1 = m.windowCount maxChunk) ∧
      (fragment msgId m i).getD 1 0 &&& idxMask = UInt8.ofNat i ∧
      (fragment msgId m i).drop fragHeaderLen = m.window maxChunk i := by
  have hi : i < 128 := by
    have := windowCount_le hm
    omega
  obtain ⟨hidx, hlast⟩ := header_byte hi (i + 1 = m.windowCount maxChunk)
  have hlen : (m.window maxChunk i).length ≤ maxChunk := List.window_length_le
  refine ⟨?_, rfl, decide_eq_decide.mpr hlast, hidx, rfl⟩
  simp [fragment, fragHeaderLen, espNowMaxPayload, maxChunk] at hlen ⊢
  omega

theorem ofNat_ne_zero (hm : m.length ≤ maxMessage) (hlt : i < m.windowCount maxChunk)
    (hpos : 0 < i) : UInt8.ofNat i ≠ 0 := by
  have hle := windowCount_le hm
  rw [ne_eq, ← UInt8.toNat_inj, UInt8.toNat_ofNat']
  change ¬ i % 256 = 0
  omega

theorem push_next (hm : m.length ≤ maxMessage) (hlt : i < m.windowCount maxChunk)
    (h : i = 0 ∨ r.Holds msgId m i) :
    ∃ t, (push (fragment msgId m i)).run r =
        .ok (if i + 1 = m.windowCount maxChunk then some m else none) t ∧
      (i + 1 = m.windowCount maxChunk → t.active = false) ∧
      (i + 1 ≠ m.windowCount maxChunk → t.Holds msgId m (i + 1)) := by
  obtain ⟨hlen, hid, hlast, hidx, hchunk⟩ := fragment_header msgId hm hlt
  rw [EStateM.run, push, if_neg hlen]
  simp only [hid, hlast, hidx, hchunk]
  rcases Nat.eq_zero_or_pos i with rfl | hpos
  · rw [if_pos (by rfl)]
    exact append_run hm hlt rfl rfl rfl (by simp)
  · obtain hzero | hholds := h
    · omega
    · rw [if_neg (ofNat_ne_zero hm hlt hpos),
        if_neg (by simp [hholds.active, hholds.msgId, hholds.nextIdx])]
      exact append_run hm hlt hholds.active hholds.msgId hholds.len hholds.buf

/-- A fragment that is neither a first one nor the one that comes next drops what there was. -/
theorem push_other (hm : m.length ≤ maxMessage) (hlt : i < m.windowCount maxChunk) (hpos : 0 < i)
    (h : r.active = false ∨ msgId ≠ r.msgId ∨ UInt8.ofNat i ≠ r.nextIdx) :
    (push (fragment msgId m i)).run r = .ok none { r with active := false } := by
  obtain ⟨hlen, hid, hlast, hidx, hchunk⟩ := fragment_header msgId hm hlt
  rw [EStateM.run, push, if_neg hlen]
  simp only [hid, hlast, hidx, hchunk]
  rw [if_neg (ofNat_ne_zero hm hlt hpos), if_pos h]

def pushAll : List Bytes → EStateM (Fault Empty) Reassembler (List (Option Bytes))
  | [] => return []
  | payload :: payloads => do
      let out ← push payload
      let outs ← pushAll payloads
      return out :: outs

theorem pushAll_fragments (hm : m.length ≤ maxMessage) {n : ℕ}
    (hn : i + (n + 1) = m.windowCount maxChunk) (h : i = 0 ∨ r.Holds msgId m i) :
    ∃ t, (pushAll ((List.range' i (n + 1)).map (fragment msgId m))).run r =
      .ok (List.replicate n none ++ [some m]) t := by
  induction n generalizing i r with
  | zero =>
      obtain ⟨t, hrun, -⟩ := push_next hm (by omega) h
      rw [if_pos (by omega)] at hrun
      refine ⟨t, ?_⟩
      rw [List.range'_succ, List.map_cons, pushAll, EStateM.run_bind_ok hrun]
      rfl
  | succ n ih =>
      obtain ⟨t, hrun, -, hholds⟩ := push_next hm (by omega) h
      rw [if_neg (by omega)] at hrun
      obtain ⟨u, hrest⟩ := ih (i := i + 1) (by omega) (.inr (hholds (by omega)))
      refine ⟨u, ?_⟩
      rw [List.range'_succ, List.map_cons, pushAll, EStateM.run_bind_ok hrun,
        EStateM.run_bind_ok hrest]
      rfl

end Reassembler

def Fragmenter.sendAll : Fragmenter → List Bytes → List (Bytes × List Bytes)
  | _, [] => []
  | self, m :: messages =>
      match self.fragments m with
      | none => self.sendAll messages
      | some (payloads, next) => (m, payloads) :: next.sendAll messages

/-- The messages that `fragments` takes, with their ids. -/
def Fragmenter.stamped : Fragmenter → List Bytes → List (UInt8 × Bytes)
  | _, [] => []
  | self, m :: messages =>
      if maxMessage < m.length then
        self.stamped messages
      else
        (self.nextMsgId, m) :: stamped ⟨self.nextMsgId + 1⟩ messages

namespace Fragmenter

theorem sendAll_eq (f : Fragmenter) (messages : List Bytes) :
    f.sendAll messages = (f.stamped messages).map fun e =>
      (e.2, (List.range (e.2.windowCount maxChunk)).map (fragment e.1 e.2)) := by
  induction messages generalizing f with
  | nil => rfl
  | cons m messages ih =>
      rw [sendAll, stamped]
      by_cases hm : maxMessage < m.length
      · rw [if_pos hm, fragments, if_pos hm]
        exact ih f
      · rw [if_neg hm, fragments_eq f (Nat.le_of_not_lt hm), List.map_cons]
        exact congrArg _ (ih _)

variable {f : Fragmenter} {messages : List Bytes}

theorem mem_of_stamped {e : UInt8 × Bytes} (h : e ∈ f.stamped messages) :
    e.2 ∈ messages ∧ e.2.length ≤ maxMessage := by
  induction messages generalizing f with
  | nil => cases h
  | cons m messages ih =>
      rw [stamped] at h
      split at h
      · exact (ih h).imp_left (List.mem_cons_of_mem m)
      · rename_i hm
        obtain rfl | h := List.mem_cons.mp h
        · exact ⟨List.mem_cons_self, Nat.le_of_not_lt hm⟩
        · exact (ih h).imp_left (List.mem_cons_of_mem m)

theorem exists_of_stamped {e : UInt8 × Bytes} (h : e ∈ f.stamped messages) :
    ∃ j < messages.length, e.1 = f.nextMsgId + UInt8.ofNat j := by
  induction messages generalizing f with
  | nil => cases h
  | cons m messages ih =>
      rw [stamped] at h
      split at h
      · obtain ⟨j, hj, he⟩ := ih h
        exact ⟨j, Nat.lt_succ_of_lt hj, he⟩
      · obtain rfl | h := List.mem_cons.mp h
        · exact ⟨0, Nat.succ_pos _, (UInt8.add_zero _).symm⟩
        · obtain ⟨j, hj, he⟩ := ih h
          refine ⟨j + 1, Nat.succ_lt_succ hj, he.trans ?_⟩
          rw [UInt8.ofNat_add, UInt8.add_assoc, UInt8.add_comm (UInt8.ofNat j)]
          rfl

theorem stamped_nodup (h : messages.length ≤ 256) : ((f.stamped messages).map Prod.fst).Nodup := by
  induction messages generalizing f with
  | nil => exact List.nodup_nil
  | cons m messages ih =>
      rw [List.length_cons] at h
      rw [stamped]
      split
      · exact ih (by omega)
      · rw [List.map_cons, List.nodup_cons]
        refine ⟨fun hmem => ?_, ih (by omega)⟩
        obtain ⟨e, he, hid⟩ := List.mem_map.mp hmem
        obtain ⟨j, hj, heq⟩ := exists_of_stamped he
        rw [hid] at heq
        have hnat := congrArg UInt8.toNat heq
        simp only [UInt8.toNat_add, UInt8.toNat_ofNat'] at hnat
        have hlt := f.nextMsgId.toNat_lt
        have hone : UInt8.toNat 1 = 1 := rfl
        omega

theorem stamped_unique (h : messages.length ≤ 256) {id : UInt8} {m m' : Bytes}
    (hm : (id, m) ∈ f.stamped messages) (hm' : (id, m') ∈ f.stamped messages) : m = m' :=
  (Prod.mk.inj (List.inj_on_of_nodup_map (stamped_nodup h) hm hm' rfl)).2

end Fragmenter

structure Source where
  fragmenter : Fragmenter
  messages : List Bytes
  /-- At most 256 consecutive messages. -/
  length_le : messages.length ≤ 256

def Source.Sent (source : Source) (payload : Bytes) : Prop :=
  ∃ e ∈ source.fragmenter.sendAll source.messages, payload ∈ e.2

instance (source : Source) (payload : Bytes) : Decidable (source.Sent payload) :=
  inferInstanceAs (Decidable (∃ e ∈ source.fragmenter.sendAll source.messages, payload ∈ e.2))

theorem Source.Sent.exists_fragment {source : Source} {payload : Bytes} (h : source.Sent payload) :
    ∃ id m i, (id, m) ∈ source.fragmenter.stamped source.messages ∧
      i < m.windowCount maxChunk ∧ payload = fragment id m i := by
  obtain ⟨e, he, hpayload⟩ := h
  rw [Fragmenter.sendAll_eq] at he
  obtain ⟨⟨id, m⟩, hmem, rfl⟩ := List.mem_map.mp he
  obtain ⟨i, hi, rfl⟩ := List.mem_map.mp hpayload
  exact ⟨id, m, i, hmem, List.mem_range.mp hi, rfl⟩

namespace SrcReassembler

variable (sources : Mac → Source)

/-- What the reassembler holds is the beginning of one message of one source. -/
def Follows (r : SrcReassembler) : Prop :=
  r.reassembler.active = true → ∃ src id m k, r.src = some src ∧
    (id, m) ∈ (sources src).fragmenter.stamped (sources src).messages ∧ r.reassembler.Holds id m k

def readied (r : SrcReassembler) (src : Mac) : Reassembler :=
  if r.src = some src then r.reassembler else r.reassembler.reset

variable {src : Mac}

theorem push_run {r : SrcReassembler} {payload : Bytes} {out : Option Bytes} {t : Reassembler}
    (h : (Reassembler.push payload).run (r.readied src) = .ok out t) :
    (push src payload).run r = .ok out ⟨t, some src⟩ := by
  rw [readied] at h
  rw [EStateM.run, push, h]

variable {sources}

/-- A partial message that survives the check of the source is one of that source. -/
theorem Follows.readied {r : SrcReassembler} (hr : r.Follows sources)
    (hactive : (r.readied src).active = true) :
    ∃ id m k, (id, m) ∈ (sources src).fragmenter.stamped (sources src).messages ∧
      (r.readied src).Holds id m k := by
  rw [SrcReassembler.readied] at hactive ⊢
  split at hactive
  · rename_i hsrc
    obtain ⟨src', id, m, k, hsrc', hmem, hholds⟩ := hr hactive
    obtain rfl := Option.some.inj (hsrc.symm.trans hsrc')
    rw [if_pos hsrc]
    exact ⟨id, m, k, hmem, hholds⟩
  · cases hactive

/-- One fragment: what is returned is a message of its source, and what is held afterwards the
beginning of one. -/
theorem Follows.push {r : SrcReassembler} (hr : r.Follows sources) {payload : Bytes}
    (h : (sources src).Sent payload) :
    ∃ out t, (SrcReassembler.push src payload).run r = .ok out t ∧ t.Follows sources ∧
      ∀ m ∈ out, m ∈ (sources src).messages := by
  obtain ⟨id, m, i, hmem, hi, rfl⟩ := h.exists_fragment
  have hmessage : m ∈ (sources src).messages := (Fragmenter.mem_of_stamped hmem).1
  have hm : m.length ≤ maxMessage := (Fragmenter.mem_of_stamped hmem).2
  by_cases hnext : i = 0 ∨ (r.readied src).Holds id m i
  · obtain ⟨t, hrun, hlast, hholds⟩ := Reassembler.push_next hm hi hnext
    refine ⟨_, _, push_run hrun, fun hactive => ?_, ?_⟩
    · have hne : i + 1 ≠ m.windowCount maxChunk := fun heq => by
        rw [hlast heq] at hactive
        cases hactive
      exact ⟨src, id, m, i + 1, rfl, hmem, hholds hne⟩
    · intro m' hm'
      split at hm'
      · exact Option.some.inj hm' ▸ hmessage
      · cases hm'
  · obtain ⟨hzero, hnot⟩ := not_or.mp hnext
    have hother : (r.readied src).active = false ∨ id ≠ (r.readied src).msgId ∨
        UInt8.ofNat i ≠ (r.readied src).nextIdx := by
      -- a partial message with this id is this message, so its next index is not `i`
      by_contra hall
      simp only [not_or, Bool.not_eq_false, not_not] at hall
      obtain ⟨hactive, hid, hidx⟩ := hall
      obtain ⟨id', m', k, hmem', hholds⟩ := hr.readied hactive
      obtain rfl : id = id' := hid.trans hholds.msgId
      obtain rfl := Fragmenter.stamped_unique (sources src).length_le hmem hmem'
      obtain rfl : i = k := by
        have hnat := congrArg UInt8.toNat (hidx.trans hholds.nextIdx)
        rw [UInt8.toNat_ofNat', UInt8.toNat_ofNat'] at hnat
        have hlt := hholds.lt
        have hle := windowCount_le hm
        omega
      exact hnot hholds
    have hrun := Reassembler.push_other hm hi (Nat.pos_of_ne_zero hzero) hother
    refine ⟨none, _, push_run hrun, fun hactive => ?_, fun _ hm' => ?_⟩
    · cases hactive
    · cases hm'

def pushAll : List (Mac × Bytes) → EStateM (Fault Empty) SrcReassembler (List (Option Bytes))
  | [] => return []
  | (src, payload) :: stream => do
      let out ← push src payload
      let outs ← pushAll stream
      return out :: outs

theorem pushAll_returns (stream : List (Mac × Bytes)) (r : SrcReassembler) :
    ∃ outs t, (pushAll stream).run r = .ok outs t := by
  induction stream generalizing r with
  | nil => exact ⟨[], r, rfl⟩
  | cons p stream ih =>
      obtain ⟨out, t, hrun⟩ := Reassembler.push_returns p.2 (r.readied p.1)
      obtain ⟨outs, u, hrest⟩ := ih ⟨t, some p.1⟩
      refine ⟨out :: outs, u, ?_⟩
      rw [pushAll, EStateM.run_bind_ok (push_run hrun), EStateM.run_bind_ok hrest]
      rfl

theorem Follows.pushAll {stream : List (Mac × Bytes)} {r : SrcReassembler}
    (hr : r.Follows sources) (h : ∀ p ∈ stream, (sources p.1).Sent p.2) :
    ∃ outs t, (SrcReassembler.pushAll stream).run r = .ok outs t ∧
      List.Forall₂ (fun p out => ∀ m ∈ out, m ∈ (sources p.1).messages) stream outs := by
  induction stream generalizing r with
  | nil => exact ⟨[], r, rfl, .nil⟩
  | cons p stream ih =>
      obtain ⟨out, t, hrun, ht, hout⟩ := hr.push (h p List.mem_cons_self)
      obtain ⟨outs, u, hrest, houts⟩ := ih ht fun q hq => h q (List.mem_cons_of_mem p hq)
      refine ⟨out :: outs, u, ?_, .cons hout houts⟩
      rw [SrcReassembler.pushAll, EStateM.run_bind_ok hrun, EStateM.run_bind_ok hrest]
      rfl

/-- The fragments of a message of at most 2048 bytes, pushed in order to a reassembler in any state,
give nothing before the last one, and the message with it.  In a stream of fragments of at most 256
consecutive messages of each source, lost, repeated and in any order, what is returned for a source
is a message that it sent.  No stream, of fragments or not, leads beyond the buffer. -/
theorem fragmentation_faithful :
    (∀ (f : Fragmenter) (r : Reassembler) (m : Bytes), m.length ≤ maxMessage →
      ∃ payloads f' t, f.fragments m = some (payloads, f') ∧
        (Reassembler.pushAll payloads).run r =
          .ok (List.replicate (payloads.length - 1) none ++ [some m]) t) ∧
    (∀ (sources : Mac → Source) (stream : List (Mac × Bytes)),
      (∀ p ∈ stream, (sources p.1).Sent p.2) →
        ∃ outs t, (pushAll stream).run new = .ok outs t ∧
          List.Forall₂ (fun p out => ∀ m ∈ out, m ∈ (sources p.1).messages) stream outs) ∧
    ∀ (stream : List (Mac × Bytes)) (r : SrcReassembler),
      ∃ outs t, (pushAll stream).run r = .ok outs t := by
  refine ⟨fun f r m hm => ?_, fun sources stream h => ?_, pushAll_returns⟩
  · obtain ⟨n, hn⟩ : ∃ n, 0 + (n + 1) = m.windowCount maxChunk :=
      ⟨(m.length - 1) / maxChunk, Nat.zero_add _⟩
    obtain ⟨t, hrun⟩ := Reassembler.pushAll_fragments hm hn (.inl rfl : _ ∨ r.Holds f.nextMsgId m 0)
    refine ⟨_, _, t, f.fragments_eq hm, ?_⟩
    rw [List.length_map, List.length_range, ← hn, Nat.zero_add, Nat.add_sub_cancel,
      List.range_eq_range']
    exact hrun
  · have hnew : new.Follows sources := fun hactive => by cases hactive
    exact hnew.pushAll h

section Sample

def macA : Mac := Block.replicate 6 0xAA

def macB : Mac := Block.replicate 6 0xBB

def sampleSources (src : Mac) : Source :=
  if src = macA then ⟨⟨255⟩, [List.replicate 250 9, [3, 4]], by decide⟩ else
    ⟨⟨255⟩, [[7]], by decide⟩

/-- The short message of the first comes before its long one, the message of the second between the
fragments of that, and its first fragment twice. -/
def sampleStream : List (Mac × Bytes) :=
  [(macA, [0, 0x80, 3, 4]), (macA, fragment 255 (List.replicate 250 9) 0), (macB, [255, 0x80, 7]),
    (macA, fragment 255 (List.replicate 250 9) 0), (macA, fragment 255 (List.replicate 250 9) 0),
    (macA, fragment 255 (List.replicate 250 9) 1)]

theorem fragmentation_faithful_sample :
    (∃ payloads f' t, Fragmenter.new.fragments [1, 2, 3] = some (payloads, f') ∧
      (Reassembler.pushAll payloads).run Reassembler.new =
        .ok (List.replicate (payloads.length - 1) none ++ [some [1, 2, 3]]) t) ∧
    ∃ t, (pushAll sampleStream).run new =
        .ok [some [3, 4], none, some [7], none, none, some (List.replicate 250 9)] t ∧
      List.Forall₂ (fun p out => ∀ m ∈ out, m ∈ (sampleSources p.1).messages) sampleStream
        [some [3, 4], none, some [7], none, none, some (List.replicate 250 9)] := by
  have h : (∀ p ∈ sampleStream, (sampleSources p.1).Sent p.2) ∧
      (((pushAll sampleStream).call new).toOption.map Prod.fst) =
        some [some [3, 4], none, some [7], none, none, some (List.replicate 250 9)] := by
    decide +kernel
  obtain ⟨outs, t, hrun, houts⟩ := fragmentation_faithful.2.1 sampleSources sampleStream h.1
  have hcall := h.2
  rw [EStateM.call_eq_ok hrun] at hcall
  obtain rfl := Option.some.inj hcall
  exact ⟨fragmentation_faithful.1 _ _ _ (by decide), t, hrun, houts⟩

end Sample

end SrcReassembler

end EspNow
end Microfips

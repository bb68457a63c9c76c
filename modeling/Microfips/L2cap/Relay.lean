import Microfips.Ble.Host
import Microfips.Data.BigEndian
import Microfips.L2cap.RateLimit

/-!
# The L2CAP relay

`relay_l2cap_frames`, file `l2cap_host.rs`, which carries frames between an L2CAP channel and the
two queues of the transport.  An SDU is a frame, or a frame behind its length where the peer speaks
the older dialect.  What is sent passes the rate limiter first, whose burst is two bytes short of
the largest SDU.
-/

namespace Microfips
namespace L2cap

def frameCap : ℕ := 2048

def sduCap : ℕ := frameCap + 2

def extendFromSlice (cap : ℕ) (v data : Bytes) : Option Bytes :=
  if v.length + data.length ≤ cap then some (v ++ data) else none

def buildSdu (raw : Bool) (frame : Bytes) : Option Bytes :=
  if raw then
    extendFromSlice sduCap [] frame
  else
    (extendFromSlice sduCap [] (Bytes.ofNatBe 2 frame.length)).bind fun sdu =>
      extendFromSlice sduCap sdu frame

/-- The frame that was received in an SDU; nothing where the relay disconnects instead. -/
def parseSdu (raw : Bool) (sdu : Bytes) : Option Bytes :=
  if raw then
    if sdu.length = 0 ∨ frameCap < sdu.length then none else extendFromSlice frameCap [] sdu
  else if sdu.length < 2 then
    none
  else
    let payloadLen := Bytes.toNatBe (sdu.take 2)
    if sdu.length < 2 + payloadLen ∨ frameCap < payloadLen then
      none
    else
      extendFromSlice frameCap [] (Bytes.slice 2 (2 + payloadLen) sdu)

theorem exists_buildSdu {raw : Bool} {frame : Bytes}
    (h : frame.length + (if raw then 0 else 2) ≤ sduCap) :
    ∃ sdu, buildSdu raw frame = some sdu ∧ sdu.length = frame.length + if raw then 0 else 2 := by
  cases raw with
  | true =>
      refine ⟨frame, ?_, rfl⟩
      rw [buildSdu, if_pos rfl, extendFromSlice, if_pos (by simpa using h), List.nil_append]
  | false =>
      have hlen : (Bytes.ofNatBe 2 frame.length ++ frame).length = frame.length + 2 := by
        rw [List.length_append, Bytes.length_ofNatBe, Nat.add_comm]
      refine ⟨Bytes.ofNatBe 2 frame.length ++ frame, ?_, hlen⟩
      rw [buildSdu, if_neg Bool.false_ne_true, extendFromSlice,
        if_pos (by rw [Bytes.length_ofNatBe]; decide),
        Option.bind_some, List.nil_append, extendFromSlice, if_pos]
      rwa [← List.length_append, hlen]

section Limiter

def relayBurst : Fin (2 ^ 32) := 2048

def relayRateBps : Fin (2 ^ 32) := 35000

open SendRateLimiter

/-- A limiter with the relay's burst, and the time, behind calls of `acquire` for SDUs that the
relay builds.  Any time may pass between two calls. -/
inductive Reached (rateBps : Fin (2 ^ 32)) : SendRateLimiter → ℕ → Prop where
  | new (now : ℕ) : Reached rateBps (.new rateBps relayBurst now) now
  | idle {s : SendRateLimiter} {now : ℕ} (ticks : ℕ) (h : Reached rateBps s now) :
      Reached rateBps s (now + ticks)
  | acquire {s t : SendRateLimiter} {now later waits : ℕ} {raw : Bool} {frame sdu : Bytes}
      (h : Reached rateBps s now) (hsdu : buildSdu raw frame = some sdu)
      (hacquire : s.acquire sdu.length waits now = some (t, later)) : Reached rateBps t later

variable {rateBps : Fin (2 ^ 32)} {s : SendRateLimiter} {now : ℕ}

theorem Reached.limits (h : Reached rateBps s now) :
    s.rateBytesPerSec = rateBps / 8 ∧ s.burstBytes = relayBurst ∧ s.lastRefill ≤ now := by
  induction h with
  | new now => exact ⟨rfl, rfl, le_rfl⟩
  | idle ticks h ih =>
      obtain ⟨hrate, hburst, hle⟩ := ih
      exact ⟨hrate, hburst, Nat.le_add_right_of_le hle⟩
  | acquire h _ hacquire ih =>
      obtain ⟨hrate, hburst, hle⟩ := ih
      obtain ⟨hrate', hburst', hle'⟩ := of_acquire hle hacquire
      exact ⟨hrate'.trans hrate, hburst'.trans hburst, hle'⟩

variable {bytes : ℕ}

/-- The limiter lets through what is no larger than the burst, at a steady rate. -/
theorem Reached.exists_acquire (h : Reached rateBps s now) (hsteady : Steady (rateBps / 8))
    (hbytes : bytes ≤ relayBurst) : ∃ waits, (s.acquire bytes waits now).isSome := by
  obtain ⟨hrate, hburst, hle⟩ := h.limits
  refine ⟨bytes, ?_⟩
  rw [SendRateLimiter.acquire, Nat.mod_eq_of_lt (hbytes.trans_lt relayBurst.isLt)]
  split
  · rfl
  · apply isSome_acquireLoop
    · rwa [hrate]
    · rwa [hburst]
    · exact hle
    · exact Nat.le_add_left _ _

/-- At every rate of a thousand bytes per second or more and every rate that divides a thousand, the
limiter lets every frame through whose SDU is no larger than the burst. -/
theorem acquire_returns (hsteady : Steady (rateBps / 8)) (h : Reached rateBps s now) (raw : Bool)
    {frame : Bytes} (hframe : frame.length + (if raw then 0 else 2) ≤ relayBurst) :
    ∃ sdu, buildSdu raw frame = some sdu ∧ ∃ waits, (s.acquire sdu.length waits now).isSome := by
  obtain ⟨sdu, hsdu, hlen⟩ := exists_buildSdu (hframe.trans (by decide))
  exact ⟨sdu, hsdu, h.exists_acquire hsteady (hlen.trans_le hframe)⟩

theorem reached_spend_burst (rateBps : Fin (2 ^ 32)) (h : (rateBps : ℕ) / 8 ≠ 0) :
    Reached rateBps ((SendRateLimiter.new rateBps relayBurst 0).spend frameCap) 0 := by
  have hsdu : buildSdu true (List.replicate frameCap 0) = some (List.replicate frameCap 0) := by
    decide +kernel
  have hacquire : (SendRateLimiter.new rateBps relayBurst 0).acquire
      (List.replicate frameCap (0 : UInt8)).length 0 0 =
        some ((SendRateLimiter.new rateBps relayBurst 0).spend frameCap, 0) := by
    have hrefill : (SendRateLimiter.new rateBps relayBurst 0).refill 0 =
        .new rateBps relayBurst 0 :=
      refill_of_elapsedMs (elapsedMs_lastRefill _)
    have hle : frameCap % 2 ^ 32 ≤
        ((SendRateLimiter.new rateBps relayBurst 0).refill 0).tokens := by
      rw [hrefill]
      exact (by decide : frameCap % 2 ^ 32 ≤ relayBurst)
    rw [List.length_replicate, acquire, if_neg (by exact h), acquireLoop_of_le hle, hrefill]
    rfl
  exact (Reached.new 0).acquire hsdu hacquire

/-- A frame of the largest size without a prefix, at the relay's rate, behind one that emptied the
bucket. -/
theorem acquire_returns_largest :
    ∃ s now, Reached relayRateBps s now ∧ s.tokens = 0 ∧
      ∃ sdu, buildSdu true (List.replicate frameCap 0) = some sdu ∧
        ∃ waits, (s.acquire sdu.length waits now).isSome := by
  have hempty := reached_spend_burst relayRateBps (by decide)
  exact ⟨_, _, hempty, rfl, acquire_returns (by decide) hempty true (by decide +kernel)⟩

theorem acquire_of_burst_lt (hrate : s.rateBytesPerSec ≠ 0) (hbytes : bytes < 2 ^ 32)
    (h : s.burstBytes < bytes) : ¬ ∃ waits, (s.acquire bytes waits now).isSome := by
  rintro ⟨waits, hsome⟩
  rw [acquire, if_neg hrate, Nat.mod_eq_of_lt hbytes, acquireLoop_of_burst_lt h] at hsome
  cases hsome

theorem acquire_of_last (hrate : s.rateBytesPerSec < 1000) (hdvd : ¬ s.rateBytesPerSec ∣ 1000)
    (hpos : s.rateBytesPerSec ≠ 0) (h : (s.refill now).tokens + 1 = bytes)
    (hle : s.lastRefill ≤ now) (hbytes : bytes < 2 ^ 32) :
    ¬ ∃ waits, (s.acquire bytes waits now).isSome := by
  rintro ⟨waits, hsome⟩
  rw [acquire, if_neg hpos, Nat.mod_eq_of_lt hbytes, acquireLoop_of_last hrate hdvd h hle hbytes]
    at hsome
  cases hsome

/-- The relay's limiter never lets a frame of the largest size through behind its length, and at six
hundred bytes per second an empty bucket stays empty for an SDU of one byte. -/
theorem acquire_never_returns :
    (∃ sdu, buildSdu false (List.replicate frameCap 0) = some sdu ∧ ¬ ∃ waits,
      ((SendRateLimiter.new relayRateBps relayBurst 0).acquire sdu.length waits 0).isSome) ∧
    ∃ s, Reached 4800 s 0 ∧ buildSdu true [0] = some [0] ∧
      ¬ ∃ waits, (s.acquire [(0 : UInt8)].length waits 0).isSome := by
  constructor
  · refine ⟨Bytes.ofNatBe 2 frameCap ++ List.replicate frameCap 0, by decide +kernel, ?_⟩
    rw [List.length_append, Bytes.length_ofNatBe, List.length_replicate]
    exact acquire_of_burst_lt (by decide) (by decide) (by decide)
  · have hempty := reached_spend_burst 4800 (by decide)
    exact ⟨_, hempty, by decide,
      acquire_of_last (by decide) (by decide) (by decide) (by decide) hempty.limits.2.2 (by decide)⟩

end Limiter

section Receive

open Ble

inductive L2capError where
  | disconnected
  | frameTooLarge
  | initFailed
  deriving DecidableEq

/-- The receiving side of a link: what the relay and the transport share. -/
structure Link where
  raw : Bool
  linkUp : Bool
  rxCh : Channel 16
  deriving DecidableEq

namespace Link

def up (raw : Bool) : Link where
  raw := raw
  linkUp := true
  rxCh := .empty

def relay (sdu : Bytes) (self : Link) : Option Bytes × Link :=
  if self.linkUp = false then
    (none, self)
  else
    match parseSdu self.raw sdu with
    | none => (none, { self with linkUp := false })
    | some frame =>
        match self.rxCh.trySend frame with
        | none => (none, self)
        | some rxCh => (some frame, { self with rxCh })

/-- One pass of the loop of `SharedL2capTransport::recv` with a buffer of so many bytes: what it
leaves there, and nothing where there is no frame yet. -/
def recv (debugAssertions : Bool) (size : ℕ) : EStateM (Fault L2capError) Link (Option Bytes) :=
  fun self =>
    if self.linkUp = false then
      .error (.err .disconnected) self
    else
      match self.rxCh.tryReceive with
      | none => .ok none self
      | some (frame, rxCh) =>
          if debugAssertions = true ∧ size < frameCap then
            .error .panic { self with rxCh }
          else
            .ok (some (frame.take (min frame.length size))) { self with rxCh }

variable {self : Link}

/-- In a release build `recv` returns the oldest frame of the queue, as far as the buffer goes. -/
theorem recv_run (hup : self.linkUp = true) {frame : Bytes} {rxCh : Channel 16}
    (h : self.rxCh.tryReceive = some (frame, rxCh)) (size : ℕ) :
    (recv false size).run self =
      .ok (some (frame.take (min frame.length size))) { self with rxCh } := by
  rw [EStateM.run, recv, if_neg (ne_false_of_eq_true hup), h]
  rfl

theorem recv_run_of_empty (hup : self.linkUp = true) (h : self.rxCh.tryReceive = none) (size : ℕ) :
    (recv false size).run self = .ok none self := by
  rw [EStateM.run, recv, if_neg (ne_false_of_eq_true hup), h]

theorem recv_run_of_down (hdown : self.linkUp = false) (size : ℕ) :
    (recv false size).run self = .error (.err .disconnected) self := by
  rw [EStateM.run, recv, if_pos hdown]

end Link

inductive LinkEvent where
  | sdu (sdu : Bytes)
  | recv
  deriving DecidableEq

/-- A link, with the frames that went into the queue and those that `recv` returned. -/
structure Watched where
  link : Link
  queued : List Bytes
  returned : List Bytes
  deriving DecidableEq

namespace Watched

def up (raw : Bool) : Watched where
  link := .up raw
  queued := []
  returned := []

def step (size : ℕ) (s : Watched) : LinkEvent → Watched
  | .sdu sdu =>
      let r := s.link.relay sdu
      { s with link := r.2, queued := s.queued ++ r.1.toList }
  | .recv =>
      match (Link.recv false size).run s.link with
      | .ok out link => { s with link, returned := s.returned ++ out.toList }
      | .error _ link => { s with link }

def Whole (s : Watched) : Prop :=
  s.queued = s.returned ++ s.link.rxCh.items

/-- The link is whole, and the buffer has room for each frame that is still in the queue. -/
structure Fits (raw : Bool) (size : ℕ) (s : Watched) : Prop where
  raw_eq : s.link.raw = raw
  whole : s.Whole
  length_le : ∀ frame ∈ s.link.rxCh.items, frame.length ≤ size

variable {raw : Bool} {size : ℕ} {s : Watched}

theorem fits_up (raw : Bool) (size : ℕ) : (up raw).Fits raw size where
  raw_eq := rfl
  whole := rfl
  length_le := by
    intro frame h
    cases h

theorem Fits.sdu (h : s.Fits raw size) {sdu : Bytes}
    (hsdu : ∀ frame, parseSdu raw sdu = some frame → frame.length ≤ size) :
    (s.step size (.sdu sdu)).Fits raw size := by
  have hkeep : ∀ link : Link, link.raw = s.link.raw → link.rxCh = s.link.rxCh →
      Fits raw size { s with link, queued := s.queued ++ (none : Option Bytes).toList } := by
    intro link hraw hrx
    refine ⟨hraw.trans h.raw_eq, ?_, hrx ▸ h.length_le⟩
    rw [Whole, Option.toList_none, List.append_nil, hrx]
    exact h.whole
  rw [step, Link.relay]
  split
  · exact hkeep _ rfl rfl
  · split
    · exact hkeep _ rfl rfl
    · next frame hparse =>
        split
        · exact hkeep _ rfl rfl
        · next rxCh hsend =>
            have hitems := Channel.items_of_trySend hsend
            refine ⟨h.raw_eq, ?_, ?_⟩
            · rw [Whole, hitems, ← List.append_assoc, ← h.whole]
              rfl
            · intro frame' hmem
              rw [hitems, List.mem_append, List.mem_singleton] at hmem
              rcases hmem with hmem | rfl
              · exact h.length_le frame' hmem
              · exact hsdu frame' (h.raw_eq ▸ hparse)

theorem Fits.recv_run (h : s.Fits raw size) (hup : s.link.linkUp = true) {frame : Bytes}
    {rxCh : Channel 16} (hreceive : s.link.rxCh.tryReceive = some (frame, rxCh)) :
    (Link.recv false size).run s.link = .ok (some frame) { s.link with rxCh } := by
  have hlen := h.length_le frame (Channel.items_of_tryReceive hreceive ▸ List.mem_cons_self)
  rw [Link.recv_run hup hreceive, Nat.min_eq_left hlen, List.take_length]

theorem Fits.recv (h : s.Fits raw size) : (s.step size .recv).Fits raw size := by
  rw [step]
  cases hup : s.link.linkUp with
  | false =>
      rw [Link.recv_run_of_down hup]
      exact h
  | true =>
      cases hreceive : s.link.rxCh.tryReceive with
      | none =>
          rw [Link.recv_run_of_empty hup hreceive]
          refine ⟨h.raw_eq, ?_, h.length_le⟩
          change s.queued = s.returned ++ [] ++ s.link.rxCh.items
          rw [List.append_nil]
          exact h.whole
      | some received =>
          obtain ⟨frame, rxCh⟩ := received
          have hitems := Channel.items_of_tryReceive hreceive
          rw [h.recv_run hup hreceive]
          refine ⟨h.raw_eq, ?_, fun frame' hmem => h.length_le frame' ?_⟩
          · change s.queued = s.returned ++ [frame] ++ rxCh.items
            rw [List.append_assoc, List.singleton_append, ← hitems]
            exact h.whole
          · rw [hitems]
            exact List.mem_cons_of_mem frame hmem

theorem Fits.run (h : s.Fits raw size) {events : List LinkEvent}
    (hsdu : ∀ sdu, .sdu sdu ∈ events → ∀ frame, parseSdu raw sdu = some frame →
      frame.length ≤ size) :
    (events.foldl (step size) s).Fits raw size := by
  induction events generalizing s with
  | nil => exact h
  | cons event events ih =>
      apply ih
      · cases event with
        | sdu sdu => exact h.sdu (hsdu sdu (.head _))
        | recv => exact h.recv
      · exact fun sdu hmem => hsdu sdu (.tail _ hmem)

end Watched

end Receive

end L2cap
end Microfips

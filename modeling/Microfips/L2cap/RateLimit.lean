import Mathlib.Algebra.Order.Ring.Nat
import Mathlib.Order.Lattice

/-!
# The send rate limiter

`SendRateLimiter`, file `rate_limit.rs`: a bucket of tokens, one for a byte, that refills with the
time and holds at most a burst.  `acquire` waits until the bucket holds what a frame needs.

A refill rounds the tokens down and forgets the time that it rounded away, and the wait is rounded
down too.  So whether a wait brings anything is a matter of the rate: it does for a rate of a
thousand bytes per second or more, and for one that divides a thousand.
-/

namespace Microfips
namespace L2cap

def ticksPerMs : ℕ := 1000

structure SendRateLimiter where
  rateBytesPerSec : ℕ
  burstBytes : ℕ
  tokens : ℕ
  /-- In ticks, as every instant. -/
  lastRefill : ℕ
  rate_lt : rateBytesPerSec < 2 ^ 32
  burst_lt : burstBytes < 2 ^ 32
  tokens_le : tokens ≤ burstBytes
  deriving DecidableEq

namespace SendRateLimiter

variable {s : SendRateLimiter} {now bytes waits : ℕ}

/-- `SendRateLimiter::new`, at an instant.  The rate is in bits per second, and the bucket is
full. -/
def new (rateBps burstBytes : Fin (2 ^ 32)) (now : ℕ) : SendRateLimiter where
  rateBytesPerSec := rateBps / 8
  burstBytes := burstBytes
  tokens := burstBytes
  lastRefill := now
  rate_lt := (Nat.div_le_self _ _).trans_lt rateBps.isLt
  burst_lt := burstBytes.isLt
  tokens_le := le_rfl

/-- `now.duration_since(self.last_refill).as_millis()`. -/
def elapsedMs (s : SendRateLimiter) (now : ℕ) : ℕ :=
  (now - s.lastRefill) / ticksPerMs

/-- The tokens of so many milliseconds.  The product wraps at 64 bits, as in a release build, and
the quotient is cut to 32. -/
def newTokens (s : SendRateLimiter) (elapsedMs : ℕ) : ℕ :=
  elapsedMs * s.rateBytesPerSec % 2 ^ 64 / 1000 % 2 ^ 32

def refill (s : SendRateLimiter) (now : ℕ) : SendRateLimiter :=
  if 0 < s.elapsedMs now then
    { s with
      -- `saturating_add`, then the burst
      tokens := min (min (s.tokens + s.newTokens (s.elapsedMs now)) (2 ^ 32 - 1)) s.burstBytes
      lastRefill := now
      tokens_le := min_le_right _ _ }
  else
    s

def waitMs (s : SendRateLimiter) (bytes : ℕ) : ℕ :=
  max ((bytes - s.tokens) * 1000 / s.rateBytesPerSec) 1

def spend (s : SendRateLimiter) (bytes : ℕ) : SendRateLimiter :=
  { s with
    tokens := s.tokens - bytes
    tokens_le := (Nat.sub_le _ _).trans s.tokens_le }

/-- The loop of `acquire`, on a clock that advances by each wait, with as many waits as given: the
limiter and the time where it returns, and nothing where it waits once more. -/
def acquireLoop (bytes waits : ℕ) (s : SendRateLimiter) (now : ℕ) :
    Option (SendRateLimiter × ℕ) :=
  if bytes ≤ (s.refill now).tokens then
    some ((s.refill now).spend bytes, now)
  else
    match waits with
    | 0 => none
    | waits + 1 =>
        acquireLoop bytes waits (s.refill now) (now + (s.refill now).waitMs bytes * ticksPerMs)

def acquire (s : SendRateLimiter) (bytes waits now : ℕ) : Option (SendRateLimiter × ℕ) :=
  if s.rateBytesPerSec = 0 then some (s, now) else acquireLoop (bytes % 2 ^ 32) waits s now

section Refill

@[simp] theorem rateBytesPerSec_refill :
    (s.refill now).rateBytesPerSec = s.rateBytesPerSec := by
  unfold refill
  split <;> rfl

@[simp] theorem burstBytes_refill : (s.refill now).burstBytes = s.burstBytes := by
  unfold refill
  split <;> rfl

theorem lastRefill_refill_le (h : s.lastRefill ≤ now) : (s.refill now).lastRefill ≤ now := by
  unfold refill
  split
  · exact le_rfl
  · exact h

theorem elapsedMs_lastRefill (s : SendRateLimiter) : s.elapsedMs s.lastRefill = 0 := by
  rw [elapsedMs, Nat.sub_self, Nat.zero_div]

theorem elapsedMs_refill : (s.refill now).elapsedMs now = 0 := by
  unfold refill
  split
  · exact elapsedMs_lastRefill _
  · next h => exact Nat.eq_zero_of_not_pos h

theorem refill_of_elapsedMs (h : s.elapsedMs now = 0) : s.refill now = s := by
  rw [refill, if_neg h.not_gt]

theorem tokens_refill (h : 0 < s.elapsedMs now) :
    (s.refill now).tokens = min (s.tokens + s.newTokens (s.elapsedMs now)) s.burstBytes := by
  have hburst := s.burst_lt
  rw [refill, if_pos h]
  dsimp only
  omega

/-- Where less than a millisecond is unaccounted for, a wait elapses as it was asked for. -/
theorem elapsedMs_add (hle : s.lastRefill ≤ now) (h : s.elapsedMs now = 0) (ms : ℕ) :
    s.elapsedMs (now + ms * ticksPerMs) = ms := by
  unfold elapsedMs ticksPerMs at *
  omega

end Refill

section Wait

theorem waitMs_pos (s : SendRateLimiter) (bytes : ℕ) : 0 < s.waitMs bytes :=
  Nat.one_pos.trans_le (le_max_right _ _)

/-- The wait of `acquire` is worth no more than the deficit or a millisecond's tokens. -/
theorem waitMs_mul_le (s : SendRateLimiter) (bytes : ℕ) :
    s.waitMs bytes * s.rateBytesPerSec ≤
      max ((bytes - s.tokens) * 1000) s.rateBytesPerSec := by
  unfold waitMs
  rcases max_choice ((bytes - s.tokens) * 1000 / s.rateBytesPerSec) 1 with hmax | hmax
  · rw [hmax]
    exact (Nat.div_mul_le_self _ _).trans (le_max_left _ _)
  · rw [hmax, Nat.one_mul]
    exact le_max_right _ _

theorem newTokens_waitMs (hbytes : bytes < 2 ^ 32) :
    s.newTokens (s.waitMs bytes) = s.waitMs bytes * s.rateBytesPerSec / 1000 := by
  have hle := waitMs_mul_le s bytes
  have hrate := s.rate_lt
  unfold newTokens
  have hlt : s.waitMs bytes * s.rateBytesPerSec < 2 ^ 32 * 1000 := by omega
  rw [Nat.mod_eq_of_lt (hlt.trans (by decide)), Nat.mod_eq_of_lt]
  exact Nat.div_lt_of_lt_mul (by omega)

def Steady (rate : ℕ) : Prop :=
  1000 ≤ rate ∨ rate ∣ 1000

instance (rate : ℕ) : Decidable (Steady rate) :=
  inferInstanceAs (Decidable (_ ∨ _))

theorem thousand_le_waitMs_mul (hrate : Steady s.rateBytesPerSec) (h : s.tokens < bytes) :
    1000 ≤ s.waitMs bytes * s.rateBytesPerSec := by
  rcases hrate with hlarge | hdvd
  · calc 1000 ≤ 1 * s.rateBytesPerSec := by omega
      _ ≤ s.waitMs bytes * s.rateBytesPerSec := Nat.mul_le_mul_right _ (le_max_right _ _)
  · calc 1000 ≤ (bytes - s.tokens) * 1000 := by omega
      _ = (bytes - s.tokens) * 1000 / s.rateBytesPerSec * s.rateBytesPerSec :=
          (Nat.div_mul_cancel (Dvd.dvd.mul_left hdvd _)).symm
      _ ≤ s.waitMs bytes * s.rateBytesPerSec := Nat.mul_le_mul_right _ (le_max_left _ _)

theorem tokens_lt_of_wait (hsteady : Steady s.rateBytesPerSec) (hbytes : bytes ≤ s.burstBytes)
    (h : s.tokens < bytes) (hle : s.lastRefill ≤ now) (hms : s.elapsedMs now = 0) :
    s.tokens < (s.refill (now + s.waitMs bytes * ticksPerMs)).tokens := by
  have helapsed := elapsedMs_add hle hms (s.waitMs bytes)
  have hwait := waitMs_pos s bytes
  have hgain := thousand_le_waitMs_mul hsteady h
  rw [tokens_refill (by rwa [helapsed]), helapsed,
    newTokens_waitMs (hbytes.trans_lt s.burst_lt)]
  omega

theorem tokens_refill_of_last (hrate : s.rateBytesPerSec < 1000)
    (hdvd : ¬ s.rateBytesPerSec ∣ 1000) (h : s.tokens + 1 = bytes) (hle : s.lastRefill ≤ now)
    (hms : s.elapsedMs now = 0) (hbytes : bytes < 2 ^ 32) :
    (s.refill (now + s.waitMs bytes * ticksPerMs)).tokens = s.tokens := by
  have helapsed := elapsedMs_add hle hms (s.waitMs bytes)
  have hwait := waitMs_pos s bytes
  have htokens := s.tokens_le
  have hworth : s.waitMs bytes * s.rateBytesPerSec < 1000 := by
    have hdeficit : bytes - s.tokens = 1 := by omega
    have hlt : 1000 / s.rateBytesPerSec * s.rateBytesPerSec < 1000 :=
      lt_of_le_of_ne (Nat.div_mul_le_self _ _) fun heq =>
        hdvd (Dvd.intro_left _ heq)
    rw [waitMs, hdeficit, Nat.one_mul]
    rcases max_choice (1000 / s.rateBytesPerSec) 1 with hmax | hmax <;> rw [hmax]
    · exact hlt
    · omega
  rw [tokens_refill (by rwa [helapsed]), helapsed, newTokens_waitMs hbytes]
  omega

end Wait

section Loop

theorem acquireLoop_of_le (h : bytes ≤ (s.refill now).tokens) :
    acquireLoop bytes waits s now = some ((s.refill now).spend bytes, now) := by
  rw [acquireLoop.eq_def, if_pos h]

theorem acquireLoop_zero (h : (s.refill now).tokens < bytes) :
    acquireLoop bytes 0 s now = none := by
  rw [acquireLoop, if_neg (by omega)]

theorem acquireLoop_succ (h : (s.refill now).tokens < bytes) :
    acquireLoop bytes (waits + 1) s now =
      acquireLoop bytes waits (s.refill now)
        (now + (s.refill now).waitMs bytes * ticksPerMs) := by
  rw [acquireLoop, if_neg (by omega)]

theorem isSome_acquireLoop (hsteady : Steady s.rateBytesPerSec) (hbytes : bytes ≤ s.burstBytes)
    (hle : s.lastRefill ≤ now) (h : bytes ≤ (s.refill now).tokens + waits) :
    (acquireLoop bytes waits s now).isSome := by
  induction waits generalizing s now with
  | zero =>
      rw [acquireLoop_of_le (by omega)]
      rfl
  | succ waits ih =>
      rcases Nat.lt_or_ge (s.refill now).tokens bytes with hlt | hge
      · rw [acquireLoop_succ hlt]
        have hle' := lastRefill_refill_le hle
        have hgain := tokens_lt_of_wait (s := s.refill now) (by simpa using hsteady)
          (by simpa using hbytes) hlt hle' elapsedMs_refill
        apply ih
        · simpa using hsteady
        · simpa using hbytes
        · omega
        · omega
      · rw [acquireLoop_of_le hge]
        rfl

theorem acquireLoop_of_burst_lt (h : s.burstBytes < bytes) :
    acquireLoop bytes waits s now = none := by
  have hlt : (s.refill now).tokens < bytes := by
    have hle := (s.refill now).tokens_le
    rw [burstBytes_refill] at hle
    omega
  induction waits generalizing s now with
  | zero => exact acquireLoop_zero hlt
  | succ waits ih =>
      rw [acquireLoop_succ hlt]
      have hburst : (s.refill now).burstBytes < bytes := by rwa [burstBytes_refill]
      apply ih hburst
      have hle := ((s.refill now).refill
        (now + (s.refill now).waitMs bytes * ticksPerMs)).tokens_le
      rw [burstBytes_refill] at hle
      omega

theorem acquireLoop_of_last (hrate : s.rateBytesPerSec < 1000) (hdvd : ¬ s.rateBytesPerSec ∣ 1000)
    (h : (s.refill now).tokens + 1 = bytes) (hle : s.lastRefill ≤ now) (hbytes : bytes < 2 ^ 32) :
    acquireLoop bytes waits s now = none := by
  induction waits generalizing s now with
  | zero => exact acquireLoop_zero (by omega)
  | succ waits ih =>
      rw [acquireLoop_succ (by omega)]
      have hle' := lastRefill_refill_le hle
      have hlast := tokens_refill_of_last (s := s.refill now) (by simpa using hrate)
        (by simpa using hdvd) h hle' elapsedMs_refill hbytes
      apply ih
      · simpa using hrate
      · simpa using hdvd
      · rw [hlast, h]
      · omega

/-- A call of `acquire` leaves the rate and the burst, and has refilled by the time it returns. -/
theorem of_acquireLoop {t : SendRateLimiter} {later : ℕ} (hle : s.lastRefill ≤ now)
    (h : acquireLoop bytes waits s now = some (t, later)) :
    t.rateBytesPerSec = s.rateBytesPerSec ∧ t.burstBytes = s.burstBytes ∧ t.lastRefill ≤ later := by
  fun_induction acquireLoop bytes waits s now with
  | case1 waits s now hge =>
      cases h
      exact ⟨rateBytesPerSec_refill, burstBytes_refill, lastRefill_refill_le hle⟩
  | case2 s now hlt => cases h
  | case3 s now hlt waits ih =>
      obtain ⟨hrate, hburst, hlast⟩ :=
        ih ((lastRefill_refill_le hle).trans (Nat.le_add_right _ _)) h
      rw [rateBytesPerSec_refill] at hrate
      rw [burstBytes_refill] at hburst
      exact ⟨hrate, hburst, hlast⟩

end Loop

theorem of_acquire {t : SendRateLimiter} {later : ℕ} (hle : s.lastRefill ≤ now)
    (h : s.acquire bytes waits now = some (t, later)) :
    t.rateBytesPerSec = s.rateBytesPerSec ∧ t.burstBytes = s.burstBytes ∧ t.lastRefill ≤ later := by
  rw [acquire] at h
  split at h
  · cases h
    exact ⟨rfl, rfl, hle⟩
  · exact of_acquireLoop hle h

end SendRateLimiter

end L2cap
end Microfips

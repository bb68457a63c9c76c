import Mathlib.Logic.Relation
import Microfips.Node.Interface

/-!
# Reconnecting

The loop of `Node::run` and the part of `PeerPolicy` that it asks whether another session may be
tried.  A session is all that happens between the record of the attempt and the next check: it ends
at any time, with a handshake that is recorded as failed or as successful, or before one.

The clock does not run backwards and reads whole milliseconds, and a timer never fires early; these
are premises of the steps.
-/

namespace Microfips
namespace Node

def maxConsecutiveFailures : ℕ := 20

def maxTotalReconnectAttempts : ℕ := 100

def failureResetWindowSecs : ℕ := 3600

def saturatingMul (a b : ℕ) : ℕ :=
  min (a * b) (2 ^ 64 - 1)

inductive ReconnectVerdict where
  | allow
  | backoff (delay : ℕ)
  | reject
  deriving DecidableEq

def ReconnectVerdict.delay : ReconnectVerdict → Option ℕ
  | allow => some 0
  | backoff delay => some delay
  | reject => none

structure ReconnectPolicy where
  retryBaseIntervalSecs : ℕ
  retryMaxBackoffSecs : ℕ
  lastConnect : Option ℕ
  consecutiveFailures : ℕ
  totalReconnectAttempts : ℕ
  firstFailureTime : Option ℕ
  deriving DecidableEq

namespace ReconnectPolicy

def withTiming (timing : NodeTiming) : ReconnectPolicy where
  retryBaseIntervalSecs := timing.retryBaseIntervalSecs
  retryMaxBackoffSecs := timing.retryMaxBackoffSecs
  lastConnect := none
  consecutiveFailures := 0
  totalReconnectAttempts := 0
  firstFailureTime := none

def baseIntervalMs (self : ReconnectPolicy) : ℕ :=
  saturatingMul self.retryBaseIntervalSecs 1000

def maxBackoffMs (self : ReconnectPolicy) : ℕ :=
  saturatingMul self.retryMaxBackoffSecs 1000

def failureBackoffMs (self : ReconnectPolicy) : ℕ :=
  if maxConsecutiveFailures ≤ self.consecutiveFailures then
    self.maxBackoffMs
  else if self.consecutiveFailures = 0 then
    0
  else
    let shift := min (self.consecutiveFailures - 1) 15
    min (saturatingMul self.baseIntervalMs (1 <<< shift)) self.maxBackoffMs

def requiredMs (self : ReconnectPolicy) : ℕ :=
  max self.baseIntervalMs self.failureBackoffMs

def windowOver (now : ℕ) (self : ReconnectPolicy) : Bool :=
  match self.firstFailureTime with
  | some firstFailureTime => failureResetWindowSecs < asSecs now - asSecs firstFailureTime
  | none => false

def resetWindow (now : ℕ) (self : ReconnectPolicy) : ReconnectPolicy :=
  if self.windowOver now then
    { self with consecutiveFailures := 0, firstFailureTime := none }
  else
    self

def checkReconnect (now : ℕ) (self : ReconnectPolicy) : ReconnectVerdict × ReconnectPolicy :=
  if maxTotalReconnectAttempts ≤ self.totalReconnectAttempts then
    (.reject, self)
  else
    let self := self.resetWindow now
    match self.lastConnect with
    | none => (.allow, self)
    | some lastConnect =>
        let elapsedMs := asMillis now - asMillis lastConnect
        if elapsedMs < self.requiredMs then
          (.backoff (fromMillis (self.requiredMs - elapsedMs)), self)
        else
          (.allow, self)

def recordHandshakeOk (self : ReconnectPolicy) : ReconnectPolicy :=
  { self with consecutiveFailures := 0, totalReconnectAttempts := 0, firstFailureTime := none }

def recordHandshakeFailure (now : ℕ) (self : ReconnectPolicy) : ReconnectPolicy :=
  { self with
    consecutiveFailures := min (self.consecutiveFailures + 1) (2 ^ 16 - 1)
    totalReconnectAttempts := min (self.totalReconnectAttempts + 1) (2 ^ 32 - 1)
    firstFailureTime := some (self.firstFailureTime.getD now)
    lastConnect := some now }

def recordConnectAttempt (now : ℕ) (self : ReconnectPolicy) : ReconnectPolicy :=
  { self with lastConnect := some now }

end ReconnectPolicy

inductive RunEvent where
  /-- A session was started. -/
  | attempt (t : ℕ)
  /-- A handshake was recorded as failed. -/
  | failed (t : ℕ)
  /-- A handshake was recorded as successful. -/
  | succeeded (t : ℕ)
  /-- A check reset the failure window. -/
  | windowReset (t : ℕ)
  deriving DecidableEq

structure Run where
  policy : ReconnectPolicy
  /-- A session runs; otherwise the loop is at its head. -/
  inSession : Bool
  /-- The clock does not read less from now on. -/
  now : ℕ
  /-- What it did, newest first. -/
  events : List RunEvent
  deriving DecidableEq

namespace Run

/-- The clock may read `t` at the time `now` or later. -/
structure Reads (now t : ℕ) : Prop where
  le : now ≤ t
  whole : ticksPerMilli ∣ t
  lt : t < 2 ^ 64

def resets (policy : ReconnectPolicy) (t : ℕ) : List RunEvent :=
  if policy.totalReconnectAttempts < maxTotalReconnectAttempts ∧ policy.windowOver t = true then
    [.windowReset t]
  else
    []

def start (timing : NodeTiming) (now : ℕ) : Run :=
  ⟨.withTiming timing, false, now, []⟩

variable (timing : NodeTiming)

inductive Step (s : Run) : Run → Prop where
  /-- The check lets a session be tried, at once or after a backoff. -/
  | attempt {c a delay : ℕ} (hhead : s.inSession = false) (hc : Reads s.now c)
      (hdelay : (s.policy.checkReconnect c).1.delay = some delay) (ha : Reads (c + delay) a) :
      Step s {
        policy := (s.policy.checkReconnect c).2.recordConnectAttempt a
        inSession := true
        now := a
        events := .attempt a :: (resets s.policy c ++ s.events) }
  /-- The check rejects, and the loop sleeps for the base interval. -/
  | rejected {c t : ℕ} (hhead : s.inSession = false) (hc : Reads s.now c)
      (hreject : (s.policy.checkReconnect c).1 = .reject)
      (ht : c + fromSecs timing.retryBaseIntervalSecs ≤ t) :
      Step s { s with policy := (s.policy.checkReconnect c).2, now := t }
  /-- The transport does not get ready. -/
  | unready {t : ℕ} (hsession : s.inSession = true) (ht : s.now ≤ t) :
      Step s { s with inSession := false, now := t }
  | failed {f t : ℕ} (hsession : s.inSession = true) (hf : Reads s.now f) (ht : f ≤ t) :
      Step s {
        policy := s.policy.recordHandshakeFailure f
        inSession := false
        now := t
        events := .failed f :: s.events }
  /-- The handshake succeeds, and the session goes on until `t`. -/
  | succeeded {o t : ℕ} (hsession : s.inSession = true) (ho : Reads s.now o) (ht : o ≤ t) :
      Step s {
        policy := s.policy.recordHandshakeOk
        inSession := false
        now := t
        events := .succeeded o :: s.events }

def Reachable (s : Run) : Prop :=
  ∃ now, Relation.ReflTransGen (Step timing) (start timing now) s

def lastAttempt : List RunEvent → Option ℕ
  | [] => none
  | .attempt t :: _ => some t
  | _ :: events => lastAttempt events

/-- The failures since the last success or the last reset of the failure window. -/
def failuresInARow : List RunEvent → ℕ
  | [] => 0
  | .attempt _ :: events => failuresInARow events
  | .failed _ :: events => failuresInARow events + 1
  | .succeeded _ :: _ => 0
  | .windowReset _ :: _ => 0

def failuresSinceSuccess : List RunEvent → ℕ
  | [] => 0
  | .attempt _ :: events => failuresSinceSuccess events
  | .failed _ :: events => failuresSinceSuccess events + 1
  | .succeeded _ :: _ => 0
  | .windowReset _ :: events => failuresSinceSuccess events

/-- The base interval times `2 ^ min (n - 1) 15`, up to the configured maximum, in seconds. -/
def backoffSecs (n : ℕ) : ℕ :=
  min (timing.retryBaseIntervalSecs * 2 ^ min (n - 1) 15) timing.retryMaxBackoffSecs

end Run

/-! ## The checks -/

theorem fromMillis_mul_thousand (secs : ℕ) : fromMillis (secs * 1000) = fromSecs secs := by
  simp only [fromMillis, fromSecs, ticksPerMilli, ticksPerSecond]
  omega

namespace ReconnectPolicy

variable {policy : ReconnectPolicy}

@[simp]
theorem resetWindow_lastConnect (now : ℕ) :
    (policy.resetWindow now).lastConnect = policy.lastConnect := by
  rw [resetWindow]
  split <;> rfl

theorem checkReconnect_eq_reject_iff (now : ℕ) :
    (policy.checkReconnect now).1 = .reject ↔
      maxTotalReconnectAttempts ≤ policy.totalReconnectAttempts := by
  rw [checkReconnect]
  split
  · rename_i htotal
    exact iff_of_true rfl htotal
  · rename_i htotal
    refine iff_of_false ?_ htotal
    simp only [resetWindow_lastConnect]
    split
    · exact ReconnectVerdict.noConfusion
    · split <;> exact ReconnectVerdict.noConfusion

theorem checkReconnect_snd (now : ℕ) :
    (policy.checkReconnect now).2 =
      if maxTotalReconnectAttempts ≤ policy.totalReconnectAttempts then policy
      else policy.resetWindow now := by
  rw [checkReconnect]
  split
  · rfl
  · simp only [resetWindow_lastConnect]
    split
    · rfl
    · split <;> rfl

theorem checkReconnect_lastConnect (now : ℕ) :
    (policy.checkReconnect now).2.lastConnect = policy.lastConnect := by
  rw [checkReconnect_snd]
  split
  · rfl
  · exact resetWindow_lastConnect now

theorem checkReconnect_total (now : ℕ) :
    (policy.checkReconnect now).2.totalReconnectAttempts = policy.totalReconnectAttempts := by
  rw [checkReconnect_snd, resetWindow]
  split
  · rfl
  · split <;> rfl

theorem le_of_checkReconnect {now last delay : ℕ}
    (hdelay : (policy.checkReconnect now).1.delay = some delay)
    (hlast : policy.lastConnect = some last) (hle : last ≤ now) (hwhole : ticksPerMilli ∣ last) :
    last + fromMillis (policy.checkReconnect now).2.requiredMs ≤ now + delay := by
  obtain ⟨m, rfl⟩ := hwhole
  rw [checkReconnect] at hdelay ⊢
  split at hdelay
  · cases hdelay
  · rename_i htotal
    rw [if_neg htotal]
    simp only [resetWindow_lastConnect, hlast] at hdelay ⊢
    split at hdelay
    · rename_i hwait
      rw [if_pos hwait]
      obtain rfl := Option.some.inj hdelay
      simp only [asMillis, fromMillis, ticksPerMilli] at hwait hle ⊢
      omega
    · rename_i hwait
      rw [if_neg hwait]
      obtain rfl := Option.some.inj hdelay
      simp only [asMillis, fromMillis, ticksPerMilli] at hwait hle ⊢
      omega

theorem exists_delay (policy : ReconnectPolicy) (now : ℕ)
    (htotal : policy.totalReconnectAttempts < maxTotalReconnectAttempts) :
    ∃ ms ≤ (policy.checkReconnect now).2.requiredMs,
      (policy.checkReconnect now).1.delay = some (fromMillis ms) := by
  rw [checkReconnect, if_neg (not_le.mpr htotal)]
  simp only [resetWindow_lastConnect]
  split
  · exact ⟨0, Nat.zero_le _, rfl⟩
  · split
    · exact ⟨_, Nat.sub_le _ _, rfl⟩
    · exact ⟨0, Nat.zero_le _, rfl⟩

theorem requiredMs_le : policy.requiredMs ≤ max policy.baseIntervalMs policy.maxBackoffMs := by
  refine max_le_max_left _ ?_
  rw [failureBackoffMs]
  split
  · exact le_rfl
  · split
    · exact Nat.zero_le _
    · exact min_le_right _ _

theorem base_le_requiredMs :
    min (policy.retryBaseIntervalSecs * 1000) (2 ^ 64 - 1) ≤ policy.requiredMs :=
  le_max_left _ _

theorem saturatingMul_saturatingMul (a b : ℕ) {c : ℕ} (hc : 0 < c) :
    saturatingMul (saturatingMul a b) c = min (a * b * c) (2 ^ 64 - 1) := by
  rw [saturatingMul, saturatingMul]
  rcases le_total (a * b) (2 ^ 64 - 1) with hle | hle
  · rw [min_eq_left hle]
  · rw [min_eq_right hle, min_eq_right (Nat.le_mul_of_pos_right _ hc),
      min_eq_right (hle.trans (Nat.le_mul_of_pos_right _ hc))]

/-- With `n` failures in a row the required time is at least the backoff, as far as 64 bits go. -/
theorem backoff_le_requiredMs {n : ℕ} (hn : 1 ≤ n)
    (hfailures : policy.consecutiveFailures = min n (2 ^ 16 - 1)) :
    min (min (policy.retryBaseIntervalSecs * 2 ^ min (n - 1) 15) policy.retryMaxBackoffSecs * 1000)
      (2 ^ 64 - 1) ≤ policy.requiredMs := by
  refine le_trans ?_ (le_max_right _ _)
  rw [failureBackoffMs]
  split
  · -- the maximum itself
    refine min_le_min_right _ ?_
    exact Nat.mul_le_mul_right _ (min_le_right _ _)
  · rename_i hfew
    have hshift : min (policy.consecutiveFailures - 1) 15 = min (n - 1) 15 := by
      rw [hfailures]
      omega
    rw [if_neg (by omega)]
    change _ ≤ min (saturatingMul policy.baseIntervalMs
      (1 <<< min (policy.consecutiveFailures - 1) 15))
      policy.maxBackoffMs
    rw [hshift, Nat.one_shiftLeft, baseIntervalMs,
      saturatingMul_saturatingMul _ _ (Nat.two_pow_pos _), maxBackoffMs, saturatingMul]
    refine le_min (min_le_min_right _ ?_) (min_le_min_right _ ?_)
    · rw [Nat.mul_right_comm]
      exact Nat.mul_le_mul_right _ (min_le_left _ _)
    · exact Nat.mul_le_mul_right _ (min_le_right _ _)

theorem le_of_saturated {last secs t : ℕ}
    (h : last + fromMillis (min (secs * 1000) (2 ^ 64 - 1)) ≤ t) (ht : t < 2 ^ 64) :
    last + fromSecs secs ≤ t := by
  rw [← fromMillis_mul_thousand]
  rcases le_total (secs * 1000) (2 ^ 64 - 1) with hle | hle
  · rwa [min_eq_left hle] at h
  · rw [min_eq_right hle] at h
    simp only [fromMillis, ticksPerMilli] at h
    omega

theorem fromMillis_le {a b : ℕ} (h : a ≤ b) : fromMillis a ≤ fromMillis b :=
  Nat.mul_le_mul_left _ h

end ReconnectPolicy

namespace Run

open ReconnectPolicy

variable {timing : NodeTiming} {s t : Run}

structure Remembers (timing : NodeTiming) (s : Run) : Prop where
  base : s.policy.retryBaseIntervalSecs = timing.retryBaseIntervalSecs
  max : s.policy.retryMaxBackoffSecs = timing.retryMaxBackoffSecs
  failures : s.policy.consecutiveFailures = min (failuresInARow s.events) (2 ^ 16 - 1)
  total : s.policy.totalReconnectAttempts = min (failuresSinceSuccess s.events) (2 ^ 32 - 1)
  /-- The last attempt, or the failure that it led to. -/
  last : ∀ a, lastAttempt s.events = some a →
    ∃ last, s.policy.lastConnect = some last ∧ a ≤ last ∧ last ≤ s.now ∧ ticksPerMilli ∣ last

theorem remembers_start (timing : NodeTiming) (now : ℕ) : Remembers timing (start timing now) :=
  ⟨rfl, rfl, rfl, rfl, by rintro a ⟨⟩⟩

theorem Remembers.check (h : Remembers timing s) (c : ℕ) :
    Remembers timing { s with
      policy := (s.policy.checkReconnect c).2
      events := resets s.policy c ++ s.events } := by
  rw [checkReconnect_snd, resets]
  by_cases htotal : maxTotalReconnectAttempts ≤ s.policy.totalReconnectAttempts
  · rw [if_pos htotal, if_neg fun hover => absurd htotal (not_le.mpr hover.1)]
    exact h
  · rw [if_neg htotal, resetWindow]
    by_cases hover : s.policy.windowOver c = true
    · rw [if_pos hover, if_pos ⟨not_le.mp htotal, hover⟩]
      exact ⟨h.base, h.max, rfl, h.total, h.last⟩
    · rw [if_neg hover, if_neg fun hboth => hover hboth.2]
      exact h

theorem Remembers.step (h : Remembers timing s) (hstep : Step timing s t) : Remembers timing t := by
  cases hstep with
  | @attempt c a delay _ hc _ ha =>
      have hcheck := h.check c
      refine ⟨hcheck.base, hcheck.max, hcheck.failures, hcheck.total, ?_⟩
      rintro _ ⟨⟩
      exact ⟨a, rfl, le_rfl, le_rfl, ha.whole⟩
  | @rejected c t _ hc hreject ht =>
      rw [checkReconnect_eq_reject_iff] at hreject
      rw [checkReconnect_snd, if_pos hreject]
      refine ⟨h.base, h.max, h.failures, h.total, fun a ha => ?_⟩
      obtain ⟨last, hlast, hle, hnow, hwhole⟩ := h.last a ha
      refine ⟨last, hlast, hle, hnow.trans (hc.le.trans ?_), hwhole⟩
      exact (Nat.le_add_right _ _).trans ht
  | unready _ ht =>
      refine ⟨h.base, h.max, h.failures, h.total, fun a ha => ?_⟩
      obtain ⟨last, hlast, hle, hnow, hwhole⟩ := h.last a ha
      exact ⟨last, hlast, hle, hnow.trans ht, hwhole⟩
  | @failed f t _ hf ht =>
      refine ⟨h.base, h.max, ?_, ?_, fun a ha => ?_⟩
      · change min (s.policy.consecutiveFailures + 1) _ = min (failuresInARow s.events + 1) _
        rw [h.failures]
        omega
      · change min (s.policy.totalReconnectAttempts + 1) _ =
          min (failuresSinceSuccess s.events + 1) _
        rw [h.total]
        omega
      · obtain ⟨last, -, hle, hnow, -⟩ := h.last a ha
        exact ⟨f, rfl, hle.trans (hnow.trans hf.le), ht, hf.whole⟩
  | succeeded _ ho ht =>
      refine ⟨h.base, h.max, rfl, rfl, fun a ha => ?_⟩
      obtain ⟨last, hlast, hle, hnow, hwhole⟩ := h.last a ha
      exact ⟨last, hlast, hle, hnow.trans (ho.le.trans ht), hwhole⟩

theorem remembers_of_reachable (hs : Reachable timing s) : Remembers timing s := by
  obtain ⟨now, hrun⟩ := hs
  induction hrun with
  | refl => exact remembers_start timing now
  | tail _ hstep ih => exact ih.step hstep

/-- Every session starts at least the base interval after the one before it, and at least the
backoff for the failures before it. -/
def Spaced (timing : NodeTiming) (events : List RunEvent) : Prop :=
  ∀ later a₂ earlier a₁, events = later ++ .attempt a₂ :: earlier →
    lastAttempt earlier = some a₁ →
      a₁ + fromSecs timing.retryBaseIntervalSecs ≤ a₂ ∧
        (1 ≤ failuresInARow earlier →
          a₁ + fromSecs (backoffSecs timing (failuresInARow earlier)) ≤ a₂)

theorem spaced_cons {e : RunEvent} {events : List RunEvent} (h : Spaced timing events)
    (he : ∀ a₂ a₁, e = .attempt a₂ → lastAttempt events = some a₁ →
      a₁ + fromSecs timing.retryBaseIntervalSecs ≤ a₂ ∧
        (1 ≤ failuresInARow events →
          a₁ + fromSecs (backoffSecs timing (failuresInARow events)) ≤ a₂)) :
    Spaced timing (e :: events) := by
  intro later a₂ earlier a₁ hsplit hlast
  cases later with
  | nil =>
      obtain ⟨rfl, rfl⟩ := List.cons.inj hsplit
      exact he a₂ a₁ rfl hlast
  | cons e' later => exact h later a₂ earlier a₁ (List.cons.inj hsplit).2 hlast

theorem Remembers.spaced (h : Remembers timing s) {c a delay : ℕ} (hc : Reads s.now c)
    (hdelay : (s.policy.checkReconnect c).1.delay = some delay) (ha : Reads (c + delay) a) {a₁ : ℕ}
    (hlast : lastAttempt (resets s.policy c ++ s.events) = some a₁) :
    a₁ + fromSecs timing.retryBaseIntervalSecs ≤ a ∧
      (1 ≤ failuresInARow (resets s.policy c ++ s.events) →
        a₁ + fromSecs (backoffSecs timing (failuresInARow (resets s.policy c ++ s.events))) ≤
          a) := by
  have hcheck := h.check c
  obtain ⟨last, hconnect, hle, hnow, hwhole⟩ := hcheck.last a₁ hlast
  have hpolicy : s.policy.lastConnect = some last :=
    (checkReconnect_lastConnect c).symm.trans hconnect
  have hwait := le_of_checkReconnect hdelay hpolicy (hnow.trans hc.le) hwhole
  have hrequired {ms : ℕ} (hms : ms ≤ (s.policy.checkReconnect c).2.requiredMs) :
      a₁ + fromMillis ms ≤ a :=
    (Nat.add_le_add hle (fromMillis_le hms)).trans (hwait.trans ha.le)
  constructor
  · refine le_of_saturated (hrequired ?_) ha.lt
    rw [← hcheck.base]
    exact base_le_requiredMs
  · intro hn
    refine le_of_saturated (hrequired ?_) ha.lt
    rw [backoffSecs, ← hcheck.base, ← hcheck.max]
    exact backoff_le_requiredMs hn hcheck.failures

theorem Spaced.step (hs : Remembers timing s) (h : Spaced timing s.events)
    (hstep : Step timing s t) : Spaced timing t.events := by
  cases hstep with
  | @attempt c a delay _ hc hdelay ha =>
      refine spaced_cons ?_ ?_
      · rw [resets]
        split
        · exact spaced_cons h (by rintro _ _ ⟨⟩)
        · exact h
      · rintro _ a₁ ⟨⟩ hlast
        exact hs.spaced hc hdelay ha hlast
  | rejected _ _ _ _ => exact h
  | unready _ _ => exact h
  | failed _ _ _ => exact spaced_cons h (by rintro _ _ ⟨⟩)
  | succeeded _ _ _ => exact spaced_cons h (by rintro _ _ ⟨⟩)

/-- Two consecutive sessions start at least the base interval apart, and behind `n ≥ 1` failures in
a row at least the base interval times `2 ^ min (n - 1) 15`, up to the maximum. -/
theorem attempts_spaced (hs : Reachable timing s) (later : List RunEvent) (a₂ : ℕ)
    (earlier : List RunEvent) (a₁ : ℕ) (hsplit : s.events = later ++ .attempt a₂ :: earlier)
    (hlast : lastAttempt earlier = some a₁) :
    a₁ + fromSecs timing.retryBaseIntervalSecs ≤ a₂ ∧
      ∀ n, 1 ≤ n → failuresInARow earlier = n →
        a₁ + fromSecs (min (timing.retryBaseIntervalSecs * 2 ^ min (n - 1) 15)
          timing.retryMaxBackoffSecs) ≤ a₂ := by
  obtain ⟨now, hrun⟩ := hs
  have hspaced : Remembers timing s ∧ Spaced timing s.events := by
    clear hsplit
    induction hrun with
    | refl => exact ⟨remembers_start timing now, by rintro (_ | _) _ _ _ ⟨⟩⟩
    | tail _ hstep ih => exact ⟨ih.1.step hstep, .step ih.1 ih.2 hstep⟩
  obtain ⟨hbase, hbackoff⟩ := hspaced.2 later a₂ earlier a₁ hsplit hlast
  refine ⟨hbase, ?_⟩
  rintro n hn rfl
  exact hbackoff hn

/-- Two failures, each at once, with the default timing: the third session starts ten seconds behind
the second. -/
theorem attempts_spaced_twice_failed :
    ∃ s, Reachable .default s ∧
      s.events = [.attempt (fromSecs 15), .failed (fromSecs 5), .attempt (fromSecs 5), .failed 0,
        .attempt 0] ∧
      fromSecs 5 + fromSecs 5 ≤ fromSecs 15 ∧
        ∀ n, 1 ≤ n →
          failuresInARow [.failed (fromSecs 5), .attempt (fromSecs 5), .failed 0, .attempt 0] = n →
            fromSecs 5 + fromSecs (min (5 * 2 ^ min (n - 1) 15) 300) ≤ fromSecs 15 := by
  have hreads {now t : ℕ} (hle : now ≤ fromSecs t) (ht : t < 100) : Reads now (fromSecs t) := by
    refine ⟨hle, ⟨1000 * t, ?_⟩, ?_⟩
    · simp only [fromSecs, ticksPerSecond, ticksPerMilli]
      omega
    · simp only [fromSecs, ticksPerSecond]
      omega
  have h₀ := hreads (t := 0) (Nat.zero_le 0) (by decide)
  have h₅ {now : ℕ} (hle : now ≤ fromSecs 5) := hreads hle (t := 5) (by decide)
  have hrun : Reachable .default _ := ⟨0, .tail (.tail (.tail (.tail (.single
    (.attempt (c := 0) (a := 0) rfl h₀ rfl h₀)) (.failed (f := 0) rfl h₀ le_rfl))
    (.attempt (c := 0) (a := fromSecs 5) rfl h₀ rfl (h₅ le_rfl)))
    (.failed (f := fromSecs 5) rfl (h₅ le_rfl) le_rfl))
    (.attempt (c := fromSecs 5) (a := fromSecs 15) rfl (h₅ le_rfl) rfl
      (hreads (by decide) (by decide)))⟩
  exact ⟨_, hrun, rfl, attempts_spaced hrun [] _ _ _ rfl rfl⟩

/-! ## The limit on failures -/

theorem exists_failing (k : ℕ) (hk : k ≤ maxTotalReconnectAttempts) :
    ∃ s, Reachable .default s ∧ s.inSession = false ∧ s.policy.totalReconnectAttempts = k ∧
      ∃ m ≤ 300000 * k, s.now = fromMillis m := by
  induction k with
  | zero => exact ⟨_, ⟨0, .refl⟩, rfl, rfl, 0, Nat.zero_le _, rfl⟩
  | succ k ih =>
      obtain ⟨s, hs, hhead, htotal, m, hm, hnow⟩ := ih (Nat.le_of_succ_le hk)
      obtain ⟨ms, hms, hdelay⟩ := s.policy.exists_delay s.now (by omega)
      have hremembers := (remembers_of_reachable hs).check s.now
      have hrequired : ms ≤ 300000 := by
        refine hms.trans (requiredMs_le.trans (le_of_eq ?_))
        rw [baseIntervalMs, maxBackoffMs, hremembers.base, hremembers.max]
        norm_num [saturatingMul, NodeTiming.default]
      have hreads {j : ℕ} (hj : j ≤ 300000 * 100) {now : ℕ} (hle : now ≤ fromMillis j) :
          Reads now (fromMillis j) := by
        refine ⟨hle, dvd_mul_right _ _, ?_⟩
        simp only [fromMillis, ticksPerMilli]
        omega
      rw [maxTotalReconnectAttempts] at hk
      have hsum : s.now + fromMillis ms = fromMillis (m + ms) := by
        rw [hnow, fromMillis, fromMillis, fromMillis, Nat.mul_add]
      have hc : Reads s.now s.now := by
        rw [hnow]
        exact hreads (by omega) le_rfl
      have ha : Reads (s.now + fromMillis ms) (fromMillis (m + ms)) := hreads (by omega) hsum.le
      have hf : Reads (fromMillis (m + ms)) (fromMillis (m + ms)) := hreads (by omega) le_rfl
      obtain ⟨now, hrun⟩ := hs
      refine ⟨_, ⟨now, .tail (.tail hrun (.attempt hhead hc hdelay ha)) (.failed rfl hf le_rfl)⟩,
        rfl, ?_, m + ms, by omega, rfl⟩
      change min ((s.policy.checkReconnect s.now).2.totalReconnectAttempts + 1) _ = k + 1
      rw [checkReconnect_total, htotal]
      omega

end Run
end Node
end Microfips

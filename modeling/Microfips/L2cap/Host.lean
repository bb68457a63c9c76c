import Microfips.L2cap.RateLimit

/-!
# The L2CAP host loop and its backoff

`L2capBackoff`, file `backoff.rs`, and the loop of `l2cap_host_task`, file `l2cap_host.rs`, that
drives it.  The loop takes the time around `do_peripheral` for the time that a connection was up.
But `do_peripheral` advertises first, until a central connects: a wait of more than ten seconds
makes a connection healthy, however short it was, and the failures before it are forgotten.
-/

namespace Microfips
namespace L2cap

def ticksPerSec : ℕ := 1000 * ticksPerMs

def baseSecs : ℕ := 5

def maxSecs : ℕ := 300

def maxFailures : ℕ := 10

def denySecs : ℕ := 300

def healthyThresholdSecs : ℕ := 10

structure Entry where
  failures : ℕ
  nextAllowed : ℕ
  failures_lt : failures < maxFailures
  deriving DecidableEq

structure L2capBackoff where
  entry : Option Entry
  denied : Option ℕ
  deriving DecidableEq

namespace L2capBackoff

def new : L2capBackoff where
  entry := none
  denied := none

def isDenied (self : L2capBackoff) (now : ℕ) : Bool × L2capBackoff :=
  match self.denied with
  | some denyUntil =>
      if now < denyUntil then (true, self) else (false, { self with denied := none })
  | none => (false, { self with denied := none })

def isInBackoff (self : L2capBackoff) (now : ℕ) : Bool :=
  match self.entry with
  | some e => decide (now < e.nextAllowed)
  | none => false

def remainingSecs (self : L2capBackoff) (now : ℕ) : ℕ :=
  match self.entry with
  | some e => if now < e.nextAllowed then (e.nextAllowed - now) / ticksPerSec else 0
  | none => 0

def failureCount (self : L2capBackoff) : ℕ :=
  match self.entry with
  | some e => e.failures
  | none => 0

def delaySecs (failures : ℕ) : ℕ :=
  let capped := min (2 ^ min failures 10 * baseSecs) maxSecs
  let jitter := failures * 0x517cc1b727220a95 % 2 ^ 64 % (capped / 5 + 1)
  capped + jitter

def recordFailure (self : L2capBackoff) (now : ℕ) : Bool × L2capBackoff :=
  let failures := self.failureCount + 1
  if h : failures < maxFailures then
    let nextAllowed := now + delaySecs failures * ticksPerSec
    (false, { self with entry := some ⟨failures, nextAllowed, h⟩ })
  else
    (true, { entry := none, denied := some (now + denySecs * ticksPerSec) })

def clear (_self : L2capBackoff) : L2capBackoff where
  entry := none
  denied := none

theorem failureCount_lt (self : L2capBackoff) : self.failureCount < maxFailures := by
  rw [failureCount]
  split
  · next e _ => exact e.failures_lt
  · decide

end L2capBackoff

inductive DisconnectReason where
  | cleanYield
  | dataExchanged
  | sendError
  | recvTimeout
  | sendTimeout
  deriving DecidableEq

/-- `BLE_DISCONNECT_SETTLE_MS`, and `BLE_YIELD_RETRY_MS` behind a clean yield. -/
def DisconnectReason.settleMs : DisconnectReason → ℕ
  | .cleanYield => 3000
  | .dataExchanged => 2000
  | .sendError => 2000
  | .recvTimeout => 2000
  | .sendTimeout => 2000

/-- A call of `do_peripheral`: the ticks until a central has connected, those from there to its end,
and what it returns. -/
structure Attempt where
  waited : ℕ
  connected : ℕ
  reason : DisconnectReason
  deriving DecidableEq

/-- The loop of `l2cap_host_task` between two iterations, with the time. -/
structure Host where
  backoff : L2capBackoff
  now : ℕ
  deriving DecidableEq

namespace Host

def start (now : ℕ) : Host where
  backoff := .new
  now := now

def account (backoff : L2capBackoff) (started now : ℕ) : L2capBackoff :=
  if healthyThresholdSecs < (now - started) / ticksPerSec then backoff.clear
  else (backoff.recordFailure now).2

def iteration (s : Host) (attempt : Attempt) : Host :=
  let (denied, backoff) := s.backoff.isDenied s.now
  if denied then
    { backoff, now := s.now + 60 * ticksPerSec }
  else
    let started :=
      if backoff.isInBackoff s.now then s.now + backoff.remainingSecs s.now * ticksPerSec else s.now
    let ended := started + attempt.waited + attempt.connected
    { backoff := account backoff started ended
      now := ended + attempt.reason.settleMs * ticksPerMs }

def run (s : Host) (attempts : List Attempt) : Host :=
  attempts.foldl iteration s

def Denied (s : Host) : Prop :=
  (s.backoff.isDenied s.now).1 = true

instance (s : Host) : Decidable s.Denied :=
  inferInstanceAs (Decidable (_ = _))

variable {s : Host} {attempt : Attempt} {attempts : List Attempt}

/-- The loop takes the call of `do_peripheral` for a failure: waiting and connection together were
not longer than a healthy connection is. -/
def Short (attempt : Attempt) : Prop :=
  (attempt.waited + attempt.connected) / ticksPerSec ≤ healthyThresholdSecs

instance (attempt : Attempt) : Decidable (Short attempt) :=
  inferInstanceAs (Decidable (_ ≤ _))

theorem isDenied_of_not (h : ¬ s.Denied) :
    s.backoff.isDenied s.now = (false, { s.backoff with denied := none }) := by
  rw [Denied, L2capBackoff.isDenied] at h
  rw [L2capBackoff.isDenied]
  split
  · next denyUntil hdenied =>
      rw [hdenied] at h
      dsimp only at h
      split at h
      · exact absurd rfl h
      · next hlt => rw [if_neg hlt]
  · rfl

/-- Where the peer is not denied, a short call is recorded as a failure at its end. -/
theorem iteration_of_short (h : ¬ s.Denied) (hshort : Short attempt) :
    ∃ ended, s.iteration attempt = {
      backoff := (L2capBackoff.recordFailure { s.backoff with denied := none } ended).2
      now := ended + attempt.reason.settleMs * ticksPerMs } := by
  rw [iteration, isDenied_of_not h]
  dsimp only
  generalize (if L2capBackoff.isInBackoff _ _ = true then _ else _) = started
  have haccount (backoff : L2capBackoff) :
      account backoff started (started + attempt.waited + attempt.connected) =
        (backoff.recordFailure (started + attempt.waited + attempt.connected)).2 := by
    rw [account, if_neg]
    rw [Nat.add_assoc, Nat.add_sub_cancel_left]
    exact Nat.not_lt.mpr hshort
  rw [if_neg Bool.false_ne_true, haccount]
  exact ⟨_, rfl⟩

theorem failureCount_of_short (h : ¬ s.Denied) (hshort : Short attempt)
    (hlt : s.backoff.failureCount + 1 < maxFailures) :
    (s.iteration attempt).backoff.failureCount = s.backoff.failureCount + 1 ∧
      ¬ (s.iteration attempt).Denied := by
  obtain ⟨ended, hstep⟩ := iteration_of_short h hshort
  have hrecord : L2capBackoff.recordFailure { s.backoff with denied := none } ended =
      (false, ⟨some ⟨s.backoff.failureCount + 1, _, hlt⟩, none⟩) := dif_pos hlt
  rw [hstep, hrecord]
  exact ⟨rfl, Bool.false_ne_true⟩

theorem denied_of_short (h : ¬ s.Denied) (hshort : Short attempt)
    (hlast : s.backoff.failureCount + 1 = maxFailures) : (s.iteration attempt).Denied := by
  obtain ⟨ended, hstep⟩ := iteration_of_short h hshort
  have hrecord : L2capBackoff.recordFailure { s.backoff with denied := none } ended =
      (true, ⟨none, some (ended + denySecs * ticksPerSec)⟩) :=
    dif_neg (Nat.not_lt.mpr hlast.ge)
  have hsettle : attempt.reason.settleMs * ticksPerMs < denySecs * ticksPerSec := by
    cases attempt.reason <;> decide
  rw [hstep, hrecord, Denied, L2capBackoff.isDenied]
  dsimp only
  rw [if_pos (Nat.add_lt_add_left hsettle ended)]

theorem failureCount_run (h : ¬ s.Denied) (hshort : ∀ a ∈ attempts, Short a)
    (hlt : s.backoff.failureCount + attempts.length < maxFailures) :
    (s.run attempts).backoff.failureCount = s.backoff.failureCount + attempts.length ∧
      ¬ (s.run attempts).Denied := by
  induction attempts generalizing s with
  | nil => exact ⟨rfl, h⟩
  | cons attempt attempts ih =>
      rw [List.length_cons] at hlt ⊢
      obtain ⟨hcount, hnot⟩ :=
        failureCount_of_short h (hshort attempt (.head _)) (by omega)
      obtain ⟨hcount', hnot'⟩ :=
        ih hnot (fun a ha => hshort a (.tail _ ha)) (by rw [hcount]; omega)
      refine ⟨?_, hnot'⟩
      rw [run, List.foldl_cons, ← run, hcount', hcount]
      omega

/-- From any iteration of any run on that does not find the peer denied, where for each connection
the time to wait for it and the time that it was up are together at most the healthy threshold: each
is counted as a failure, and the one that makes the failures `MAX_FAILURES` denies the peer.  With
no failure before them, this is the tenth. -/
theorem denied_after_failures (now : ℕ) (before : List Attempt) {failures : List Attempt}
    (hallowed : ¬ ((start now).run before).Denied)
    (hcount : ((start now).run before).backoff.failureCount + failures.length = maxFailures)
    (hshort : ∀ a ∈ failures, Short a) :
    (∀ some rest, failures = some ++ rest → rest ≠ [] →
      ((start now).run (before ++ some)).backoff.failureCount =
        ((start now).run before).backoff.failureCount + some.length) ∧
    ((start now).run (before ++ failures)).Denied := by
  have hrun : ∀ more, (start now).run (before ++ more) = ((start now).run before).run more :=
    fun more => List.foldl_append
  have hfew : ∀ some rest, failures = some ++ rest → rest ≠ [] →
      ((start now).run (before ++ some)).backoff.failureCount =
        ((start now).run before).backoff.failureCount + some.length ∧
      ¬ ((start now).run (before ++ some)).Denied := by
    rintro some rest rfl hrest
    have hpos := List.length_pos_iff.mpr hrest
    rw [hrun]
    apply failureCount_run hallowed
    · exact fun a ha => hshort a (List.mem_append_left _ ha)
    · rw [List.length_append] at hcount
      omega
  refine ⟨fun some rest heq hrest => (hfew some rest heq hrest).1, ?_⟩
  have hne : failures ≠ [] := by
    rintro rfl
    exact absurd hcount (L2capBackoff.failureCount_lt _).ne
  obtain ⟨first, last, rfl⟩ : ∃ first last, failures = first ++ [last] :=
    ⟨_, _, (List.dropLast_concat_getLast hne).symm⟩
  obtain ⟨hcount', hnot⟩ := hfew first [last] rfl (List.cons_ne_nil _ _)
  rw [List.length_append, List.length_singleton] at hcount
  rw [← List.append_assoc, run, List.foldl_append]
  apply denied_of_short hnot
  · exact hshort last (List.mem_append_right _ List.mem_cons_self)
  · rw [hcount']
    omega

def dropped (secs : ℕ) : Attempt where
  waited := secs * ticksPerSec
  connected := ticksPerSec
  reason := .dataExchanged

theorem denied_after_failures_promptly :
    ((start 0).run (List.replicate maxFailures (dropped 0))).Denied := by
  have hshort : ∀ a ∈ List.replicate maxFailures (dropped 0), Short a := by
    intro a ha
    rw [List.eq_of_mem_replicate ha]
    decide
  have h := denied_after_failures 0 [] (by decide) (by decide) hshort
  rw [List.nil_append] at h
  exact h.2

/-- Ten connections of one second each, with eleven seconds of waiting before each: the peer is not
denied, and no failure is counted. -/
theorem waiting_counts_as_healthy :
    ¬ ((start 0).run (List.replicate maxFailures (dropped 11))).Denied ∧
      ((start 0).run (List.replicate maxFailures (dropped 11))).backoff.failureCount = 0 := by
  decide +kernel

end Host

end L2cap
end Microfips
